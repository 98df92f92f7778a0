import Synopsis.Atom

/-!
# Maps keyed by atoms

A map keyed by atoms is a list of entries in increasing order of their keys. Two maps with the
same answer at every key are the same map, and every listing of a map is in atom order.
-/
namespace Synopsis

/-- A finite map from atoms to values. -/
structure AtomMap (β : Type) where
  /-- The entries in increasing order of their keys. -/
  toList : List (Atom × β)
  /-- Every key is before all later ones. -/
  ordered : toList.Pairwise (fun first second => first.1 < second.1)
deriving DecidableEq

namespace AtomMap

variable {β : Type}

/-- Put an entry at its place in an increasing list, instead of one with the same key. -/
def place (key : Atom) (value : β) : List (Atom × β) → List (Atom × β)
  | [] => [(key, value)]
  | (first, old) :: rest =>
    if key = first then (key, value) :: rest
    else if key < first then (key, value) :: (first, old) :: rest
    else (first, old) :: place key value rest

/-- The value of the first entry with a key. -/
def search (key : Atom) : List (Atom × β) → Option β
  | [] => none
  | (first, value) :: rest => if key = first then some value else search key rest

/-- The keys after placing an entry are its key and the keys before. -/
theorem mem_keys_place {key other : Atom} {value : β} {entries : List (Atom × β)} :
    other ∈ (place key value entries).map Prod.fst ↔
      other = key ∨ other ∈ entries.map Prod.fst := by
  induction entries with
  | nil => simp [place]
  | cons entry rest ih =>
    obtain ⟨first, old⟩ := entry
    rw [place]
    split
    · next same => simp [same]
    · split
      · simp
      · simp only [List.map_cons, List.mem_cons, ih]
        exact ⟨fun h => by rcases h with h | h | h <;> simp [h],
          fun h => by rcases h with h | h | h <;> simp [h]⟩

/-- Placing an entry keeps an increasing list increasing. -/
theorem place_ordered (key : Atom) (value : β) {entries : List (Atom × β)}
    (ordered : entries.Pairwise (fun first second => first.1 < second.1)) :
    (place key value entries).Pairwise (fun first second => first.1 < second.1) := by
  induction entries with
  | nil => simp [place]
  | cons entry rest ih =>
    obtain ⟨first, old⟩ := entry
    have ⟨below, tail⟩ := List.pairwise_cons.1 ordered
    rw [place]
    split
    · next same => exact List.pairwise_cons.2 ⟨fun other mem => same ▸ below other mem, tail⟩
    · next different =>
      split
      · next before =>
        refine List.pairwise_cons.2 ⟨fun other mem => ?_, ordered⟩
        rcases List.mem_cons.1 mem with rfl | later
        · exact before
        · exact Atom.lt_trans before (below other later)
      · next after =>
        refine List.pairwise_cons.2 ⟨fun other mem => ?_, ih tail⟩
        rcases mem_keys_place.1 (List.mem_map_of_mem mem) with same | later
        · exact same ▸ Atom.lt_of_not_lt different after
        · obtain ⟨found, foundMem, same⟩ := List.mem_map.1 later
          exact same ▸ below found foundMem

/-- The map without entries. -/
def empty : AtomMap β := ⟨[], List.Pairwise.nil⟩

/-- The map with one entry more or replaced. -/
def insert (map : AtomMap β) (key : Atom) (value : β) : AtomMap β :=
  ⟨place key value map.toList, place_ordered key value map.ordered⟩

/-- The map of a list of entries; of two entries with one key the later one counts. -/
def ofList (entries : List (Atom × β)) : AtomMap β :=
  entries.foldl (fun map entry => map.insert entry.1 entry.2) empty

/-- The value at a key. -/
def find? (map : AtomMap β) (key : Atom) : Option β := search key map.toList

/-- Whether the map has an entry for the key. -/
def contains (map : AtomMap β) (key : Atom) : Bool := (map.find? key).isSome

/-- The keys in increasing order. -/
def keys (map : AtomMap β) : List Atom := map.toList.map Prod.fst

/-- The map without an entry for the key. -/
def erase (map : AtomMap β) (key : Atom) : AtomMap β :=
  ⟨map.toList.filter (fun entry => entry.1 ≠ key), map.ordered.filter _⟩

/-- Placing an entry changes the answer at its key and no other answer. -/
theorem search_place (key other : Atom) (value : β) (entries : List (Atom × β)) :
    search other (place key value entries) =
      if other = key then some value else search other entries := by
  induction entries with
  | nil => rfl
  | cons entry rest ih =>
    obtain ⟨first, old⟩ := entry
    rw [place]
    split
    · next here =>
      subst here
      by_cases same : other = key
      · simp only [search, if_pos same]
      · simp only [search, if_neg same]
    · next different =>
      split
      · rfl
      · rw [search, ih, search]
        by_cases same : other = first
        · rw [if_pos same, if_pos same, if_neg (same ▸ Ne.symm different)]
        · rw [if_neg same, if_neg same]

/-- Inserting an entry changes the answer at its key and no other answer. -/
theorem find?_insert (map : AtomMap β) (key other : Atom) (value : β) :
    (map.insert key value).find? other = if other = key then some value else map.find? other :=
  search_place key other value map.toList

/-- The empty map answers nothing. -/
theorem find?_empty (key : Atom) : (empty : AtomMap β).find? key = none := rfl

end AtomMap

end Synopsis

import Synopsis.Atom.Map

/-!
# Look-ups and listings

The listing of a map and its look-ups tell the same: an entry is listed exactly where it is found,
and a map is determined by what is found in it.
-/
namespace Synopsis.AtomMap

variable {β : Type}

/-- A value found in an increasing list of entries is listed there under its key. -/
theorem mem_of_search {key : Atom} {value : β} {entries : List (Atom × β)}
    (found : search key entries = some value) : (key, value) ∈ entries := by
  induction entries with
  | nil => contradiction
  | cons entry rest ih =>
    obtain ⟨first, old⟩ := entry
    rw [search] at found
    split at found
    · next same =>
      injection found with value
      exact same ▸ value ▸ List.mem_cons_self
    · exact List.mem_cons_of_mem _ (ih found)

/-- An entry of an increasing list is the one that is found under its key. -/
theorem search_of_mem {key : Atom} {value : β} {entries : List (Atom × β)}
    (ordered : entries.Pairwise fun first second => first.1 < second.1)
    (mem : (key, value) ∈ entries) : search key entries = some value := by
  induction entries with
  | nil => exact absurd mem List.not_mem_nil
  | cons entry rest ih =>
    obtain ⟨first, old⟩ := entry
    have ⟨below, tail⟩ := List.pairwise_cons.1 ordered
    rw [search]
    rcases List.mem_cons.1 mem with same | later
    · obtain ⟨rfl, rfl⟩ := Prod.mk.inj same
      rw [if_pos rfl]
    · have before : first < key := below (key, value) later
      have other : key ≠ first := by
        rintro rfl
        exact Atom.lt_irrefl key before
      rw [if_neg other, ih tail later]

/-- An entry is listed exactly where it is found. -/
theorem mem_toList_iff {map : AtomMap β} {key : Atom} {value : β} :
    (key, value) ∈ map.toList ↔ map.find? key = some value :=
  ⟨search_of_mem map.ordered, mem_of_search⟩

/-- A map has an entry for a key exactly when one is found there. -/
theorem contains_iff {map : AtomMap β} {key : Atom} :
    map.contains key = true ↔ ∃ value, map.find? key = some value := by
  rw [contains, Option.isSome_iff_exists]

/-- The keys of a map are the atoms under which an entry is found. -/
theorem mem_keys_iff {map : AtomMap β} {key : Atom} :
    key ∈ map.keys ↔ ∃ value, map.find? key = some value := by
  rw [keys, List.mem_map]
  constructor
  · rintro ⟨⟨_, value⟩, mem, rfl⟩
    exact ⟨value, mem_toList_iff.1 mem⟩
  · rintro ⟨value, found⟩
    exact ⟨(key, value), mem_toList_iff.2 found, rfl⟩

/-- An entry whose key is after all others is put at the end. -/
theorem place_last {key : Atom} {value : β} {entries : List (Atom × β)}
    (after : ∀ entry ∈ entries, entry.1 < key) :
    place key value entries = entries ++ [(key, value)] := by
  induction entries with
  | nil => rfl
  | cons entry rest ih =>
    obtain ⟨first, old⟩ := entry
    have before : first < key := after (first, old) List.mem_cons_self
    have different : key ≠ first := by
      rintro rfl
      exact Atom.lt_irrefl key before
    have notBefore : ¬ key < first := fun less => Atom.lt_irrefl key (Atom.lt_trans less before)
    rw [place, if_neg different, if_neg notBefore,
      ih fun entry mem => after entry (List.mem_cons_of_mem _ mem), List.cons_append]

/-- A map is determined by its listing. -/
theorem ext_toList {first second : AtomMap β} (lists : first.toList = second.toList) :
    first = second := by
  cases first
  cases second
  cases lists
  rfl

/-- No entry is listed twice. -/
theorem nodup_toList (map : AtomMap β) : map.toList.Nodup := by
  refine List.Pairwise.imp (fun {first second} before same => ?_) map.ordered
  rw [same] at before
  exact Atom.lt_irrefl second.1 before

/-- A map is determined by what is found in it. -/
theorem ext_find? {first second : AtomMap β}
    (same : ∀ key, first.find? key = second.find? key) : first = second := by
  have members : ∀ entry, entry ∈ first.toList ↔ entry ∈ second.toList := by
    rintro ⟨key, value⟩
    rw [mem_toList_iff, mem_toList_iff, same]
  have listed : first.toList.Perm second.toList :=
    (List.perm_ext_iff_of_nodup first.nodup_toList second.nodup_toList).2 members
  have single : ∀ one other : Atom × β, one ∈ first.toList → other ∈ second.toList →
      one.1 < other.1 → other.1 < one.1 → one = other := fun one other _ _ before after =>
    absurd (Atom.lt_trans before after) (Atom.lt_irrefl one.1)
  exact ext_toList (listed.eq_of_pairwise single first.ordered second.ordered)

/-- A map is the map of its listing. -/
theorem ofList_toList (map : AtomMap β) : ofList map.toList = map := by
  have general : ∀ (later : List (Atom × β)) (known : AtomMap β),
      (known.toList ++ later).Pairwise (fun first second => first.1 < second.1) →
      (later.foldl (fun map entry => map.insert entry.1 entry.2) known).toList =
        known.toList ++ later := by
    intro later
    induction later with
    | nil => exact fun known _ => (List.append_nil _).symm
    | cons entry rest ih =>
      intro known ordered
      have after : ∀ other ∈ known.toList, other.1 < entry.1 := by
        intro other mem
        exact (List.pairwise_append.1 ordered).2.2 other mem entry List.mem_cons_self
      have placed : (known.insert entry.1 entry.2).toList = known.toList ++ [entry] :=
        place_last after
      rw [List.append_cons, ← placed] at ordered ⊢
      exact ih (known.insert entry.1 entry.2) ordered
  exact ext_toList (general map.toList .empty map.ordered)

end Synopsis.AtomMap

import Synopsis.Atom

/-!
# Sets of atoms

A set of atoms is a list in increasing order. The order is part of the type, so two sets with the
same members are the same set, and every listing of a set is in atom order.
-/
namespace Synopsis

/-- A finite set of atoms. -/
structure AtomSet where
  /-- The members in increasing order. -/
  toList : List Atom
  /-- Every member is before all later ones. -/
  ordered : toList.Pairwise (· < ·)
deriving DecidableEq

namespace AtomSet

/-- Put an atom at its place in an increasing list, unless it is there. -/
def place (atom : Atom) : List Atom → List Atom
  | [] => [atom]
  | first :: rest =>
    if atom = first then first :: rest
    else if atom < first then atom :: first :: rest
    else first :: place atom rest

/-- Placing an atom adds it and nothing else. -/
theorem mem_place {atom other : Atom} {atoms : List Atom} :
    other ∈ place atom atoms ↔ other = atom ∨ other ∈ atoms := by
  induction atoms with
  | nil => simp [place]
  | cons first rest ih =>
    rw [place]
    split
    · next same => simp [same]
    · split
      · simp
      · simp only [List.mem_cons, ih]
        exact ⟨fun h => by rcases h with h | h | h <;> simp [h],
          fun h => by rcases h with h | h | h <;> simp [h]⟩

/-- Placing an atom keeps an increasing list increasing. -/
theorem place_ordered (atom : Atom) {atoms : List Atom} (ordered : atoms.Pairwise (· < ·)) :
    (place atom atoms).Pairwise (· < ·) := by
  induction atoms with
  | nil => simp [place]
  | cons first rest ih =>
    have ⟨below, tail⟩ := List.pairwise_cons.1 ordered
    rw [place]
    split
    · exact ordered
    · next different =>
      split
      · next before =>
        refine List.pairwise_cons.2 ⟨fun other mem => ?_, ordered⟩
        rcases List.mem_cons.1 mem with rfl | later
        · exact before
        · exact Atom.lt_trans before (below other later)
      · next after =>
        refine List.pairwise_cons.2 ⟨fun other mem => ?_, ih tail⟩
        rcases mem_place.1 mem with rfl | later
        · exact Atom.lt_of_not_lt different after
        · exact below other later

/-- The set without members. -/
def empty : AtomSet := ⟨[], List.Pairwise.nil⟩

/-- The set with one more member. -/
def insert (set : AtomSet) (atom : Atom) : AtomSet :=
  ⟨place atom set.toList, place_ordered atom set.ordered⟩

/-- The set of the atoms of a list. -/
def ofList (atoms : List Atom) : AtomSet := atoms.foldl insert empty

/-- Whether the set has no members. -/
def isEmpty (set : AtomSet) : Bool := set.toList.isEmpty

instance : Membership Atom AtomSet := ⟨fun set atom => atom ∈ set.toList⟩

instance (atom : Atom) (set : AtomSet) : Decidable (atom ∈ set) :=
  inferInstanceAs (Decidable (atom ∈ set.toList))

/-- Membership in a set is membership in its listing. -/
theorem mem_toList {atom : Atom} {set : AtomSet} : atom ∈ set.toList ↔ atom ∈ set := Iff.rfl

/-- Inserting adds one member and nothing else. -/
theorem mem_insert {set : AtomSet} {atom other : Atom} :
    other ∈ set.insert atom ↔ other = atom ∨ other ∈ set := mem_place

/-- The members of the set of a list are the atoms of the list. -/
theorem mem_ofList {atoms : List Atom} {atom : Atom} : atom ∈ ofList atoms ↔ atom ∈ atoms := by
  have general : ∀ (more : List Atom) (set : AtomSet),
      atom ∈ more.foldl insert set ↔ atom ∈ set ∨ atom ∈ more := by
    intro more
    induction more with
    | nil => intro set; simp
    | cons first rest ih =>
      intro set
      rw [List.foldl_cons, ih, mem_insert, List.mem_cons]
      exact ⟨fun h => by rcases h with (h | h) | h <;> simp [h],
        fun h => by rcases h with h | h | h <;> simp [h]⟩
  rw [ofList, general]
  exact ⟨fun h => h.resolve_left List.not_mem_nil, Or.inr⟩

/-- Two increasing lists with the same members are equal. -/
theorem eq_of_ordered {first second : List Atom} (one : first.Pairwise (· < ·))
    (two : second.Pairwise (· < ·)) (same : ∀ atom, atom ∈ first ↔ atom ∈ second) :
    first = second := by
  induction first generalizing second with
  | nil =>
    cases second with
    | nil => rfl
    | cons head tail => exact absurd ((same head).2 List.mem_cons_self) List.not_mem_nil
  | cons a rest ih =>
    cases second with
    | nil => exact absurd ((same a).1 List.mem_cons_self) List.not_mem_nil
    | cons b more =>
      have ⟨belowA, tailA⟩ := List.pairwise_cons.1 one
      have ⟨belowB, tailB⟩ := List.pairwise_cons.1 two
      have heads : a = b := by
        rcases List.mem_cons.1 ((same a).1 List.mem_cons_self) with equal | later
        · exact equal
        · rcases List.mem_cons.1 ((same b).2 List.mem_cons_self) with equal | other
          · exact equal.symm
          · exact absurd (Atom.lt_trans (belowB a later) (belowA b other)) (Atom.lt_irrefl b)
      subst heads
      refine congrArg (a :: ·) (ih tailA tailB fun atom => ⟨fun mem => ?_, fun mem => ?_⟩)
      · refine ((List.mem_cons.1 ((same atom).1 (List.mem_cons_of_mem _ mem))).resolve_left ?_)
        rintro rfl
        exact Atom.lt_irrefl _ (belowA _ mem)
      · refine ((List.mem_cons.1 ((same atom).2 (List.mem_cons_of_mem _ mem))).resolve_left ?_)
        rintro rfl
        exact Atom.lt_irrefl _ (belowB _ mem)

/-- Two sets with the same members are the same set. -/
theorem ext_mem {first second : AtomSet} (same : ∀ atom, atom ∈ first ↔ atom ∈ second) :
    first = second := by
  have lists := eq_of_ordered first.ordered second.ordered same
  cases first
  cases second
  cases lists
  rfl

end AtomSet

end Synopsis

import Synopsis.Atom.Set

/-!
# Sets and their listings

A set lists each of its members once, the least one first, and it is the set of its own listing.
-/
namespace Synopsis.AtomSet

/-- No atom is listed twice. -/
theorem nodup_toList (set : AtomSet) : set.toList.Nodup := by
  refine List.Pairwise.imp (fun {first second} before same => ?_) set.ordered
  rw [same] at before
  exact Atom.lt_irrefl second before

/-- A member is listed once and any other atom not at all. -/
theorem count_toList (set : AtomSet) (atom : Atom) :
    set.toList.count atom = if atom ∈ set then 1 else 0 :=
  List.Nodup.count set.nodup_toList

/-- A set is the set of its listing. -/
theorem ofList_toList (set : AtomSet) : ofList set.toList = set := ext_mem fun _ => mem_ofList

/-- The first member in the order of atoms, if there is any. -/
def least? (set : AtomSet) : Option Atom := set.toList.head?

/-- The least member is the one that is before all others. -/
theorem least?_eq_some_iff {set : AtomSet} {atom : Atom} :
    set.least? = some atom ↔ atom ∈ set ∧ ∀ other ∈ set, other = atom ∨ atom < other := by
  obtain ⟨listing, ordered⟩ := set
  change listing.head? = some atom ↔
    atom ∈ listing ∧ ∀ other ∈ listing, other = atom ∨ atom < other
  cases listing with
  | nil => simp
  | cons first later =>
    obtain ⟨below, -⟩ := List.pairwise_cons.1 ordered
    rw [List.head?_cons, Option.some_inj]
    constructor
    · rintro rfl
      refine ⟨List.mem_cons_self, fun other mem => ?_⟩
      exact (List.mem_cons.1 mem).imp_right (below other)
    · rintro ⟨mem, least⟩
      rcases List.mem_cons.1 mem with same | inLater
      · exact same.symm
      · rcases least first List.mem_cons_self with same | before
        · exact same
        · exact absurd (Atom.lt_trans (below atom inLater) before) (Atom.lt_irrefl first)

/-- A set with members has a least one. -/
theorem exists_least? {set : AtomSet} {atom : Atom} (mem : atom ∈ set) :
    ∃ least, set.least? = some least := by
  cases found : set.least? with
  | some least => exact ⟨least, rfl⟩
  | none =>
    have listed : atom ∈ set.toList := mem
    rw [List.head?_eq_none_iff.1 found] at listed
    exact absurd listed List.not_mem_nil

/-- A set without a listed member has none. -/
theorem isEmpty_iff {set : AtomSet} : set.isEmpty = true ↔ ∀ atom, atom ∉ set := by
  rw [isEmpty, List.isEmpty_iff, List.eq_nil_iff_forall_not_mem]
  rfl

/-- A set that is not empty has a member, and no other set has one. -/
theorem isEmpty_eq_false_iff {set : AtomSet} : set.isEmpty = false ↔ ∃ atom, atom ∈ set := by
  rw [← Bool.not_eq_true, isEmpty_iff, Classical.not_forall_not]

end Synopsis.AtomSet

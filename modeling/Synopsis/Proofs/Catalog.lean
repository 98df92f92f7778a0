import Synopsis.Interface
import Synopsis.Proofs.Atom.Map

/-!
# What is recorded in a catalog

Recording repeatability changes one field of the entries of a pattern's leaves. Every leaf has an
entry afterwards, which says of it what the pattern says.
-/
namespace Synopsis.Catalog

/-- Recording several atoms records each of them and no other atom. -/
theorem find?_foldl_record (flag : Atom → Bool) (atoms : List Atom) (catalog : Catalog)
    (other : Atom) :
    (atoms.foldl (fun found atom => found.record atom (flag atom)) catalog).find? other =
      if other ∈ atoms then
        some { (catalog.find? other).getD .blank with repeatable := flag other }
      else catalog.find? other := by
  induction atoms generalizing catalog with
  | nil => rfl
  | cons first later ih =>
    rw [List.foldl_cons, ih, find?_record]
    by_cases same : other = first
    · subst same
      simp only [if_true, List.mem_cons, true_or, Option.getD_some, ite_self]
    · simp only [same, List.mem_cons, false_or, if_false]

/-- The entry of a leaf says whether the leaf may repeat; all other entries stay. -/
theorem find?_recordRepeats (catalog : Catalog) (pattern : Pattern Atom) (atom : Atom) :
    (catalog.recordRepeats pattern).find? atom =
      if atom ∈ pattern.leaves then
        some { (catalog.find? atom).getD .blank with repeatable := pattern.mayRepeat atom }
      else catalog.find? atom := by
  rw [recordRepeats, find?_foldl_record]
  simp only [List.mem_eraseDups]

end Synopsis.Catalog

import Synopsis.Proofs.Interface.Problem

/-!
# Problems of assembled interfaces

Assembling neither makes a problem nor mends one, but for leaves without an entry, which it gives a
blank one. So the pattern and the catalog that an interface is assembled from tell whether it has
problems.
-/
namespace Synopsis.Interface

/-- An assembled interface has no problem exactly when the pattern is flat and the catalog
consistent that it is assembled from, and it never has a leaf without an entry. -/
theorem problems_assemble (pattern : Pattern Atom) (catalog : Catalog) :
    ((assemble pattern catalog).problems = [] ↔ pattern.Flat ∧ catalog.Consistent) ∧
    ∀ atom, .noEntry atom ∉ (assemble pattern catalog).problems := by
  refine ⟨⟨fun none => ?_, fun ⟨flat, consistent⟩ => ?_⟩, fun atom mem => ?_⟩
  · have expanded : (pattern.expand catalog).Flat := (problems_eq_nil.1 none).1
    have flat := Pattern.flat_of_bind expanded
    exact ⟨flat, (problems_assemble_eq_nil flat).1 none⟩
  · exact (problems_assemble_eq_nil flat).2 consistent
  · obtain ⟨leaf, none⟩ := noEntry_mem_problems.1 mem
    obtain ⟨entry, found, -⟩ := find?_assemble_of_leaf leaf
    rw [none] at found
    contradiction

end Synopsis.Interface

import Synopsis.Proofs.Catalog.Synonyms

/-!
# Assembled interfaces

Assembling expands the pattern, which keeps it flat, and gives every leaf of it an entry.
-/
namespace Synopsis.Interface

/-- Every leaf of an assembled interface has an entry that says whether the leaf may repeat. -/
theorem find?_assemble_of_leaf {pattern : Pattern Atom} {catalog : Catalog} {atom : Atom}
    (mem : atom ∈ (assemble pattern catalog).pattern.leaves) :
    ∃ entry, (assemble pattern catalog).catalog.find? atom = some entry ∧
      entry.repeatable = (assemble pattern catalog).pattern.mayRepeat atom := by
  have found := Catalog.find?_recordRepeats catalog (pattern.expand catalog) atom
  exact ⟨_, found.trans (if_pos mem), rfl⟩

/-- Assembling expands a flat pattern to a flat one. -/
theorem flat_assemble {pattern : Pattern Atom} (flat : pattern.Flat) (catalog : Catalog) :
    (assemble pattern catalog).pattern.Flat :=
  Pattern.flat_bind flat catalog.flat_spellings

end Synopsis.Interface

import Synopsis.Proofs.Interface.Problem

/-!
# One spelling for every option

All spellings of an option can be taken for the least one of them. Whether a spelling may repeat
in an expanded pattern is what the pattern says of this one spelling when it stands wherever any
of them was written. So no spelling of an option is treated otherwise than another.
-/
namespace Synopsis

namespace Catalog

/-- The least member of an atom's group. -/
def representative (catalog : Catalog) (atom : Atom) : Atom :=
  ((catalog.group atom).least?).getD atom

/-- The representative of an atom is in its group, before all other members. -/
theorem representative_least (catalog : Catalog) (atom : Atom) :
    catalog.representative atom ∈ catalog.group atom ∧
      ∀ spelling ∈ catalog.group atom,
        spelling = catalog.representative atom ∨ catalog.representative atom < spelling := by
  obtain ⟨member, mem⟩ := exists_mem_group catalog atom
  obtain ⟨least, found⟩ := AtomSet.exists_least? mem
  rw [representative, found, Option.getD_some]
  exact AtomSet.least?_eq_some_iff.1 found

section Consistent

variable {catalog : Catalog} (consistent : catalog.Consistent) (options : catalog.OptionsOnly)

include consistent options

/-- A spelling that is in its own group is in the group of an atom exactly when both have one
representative. -/
theorem mem_group_iff_representative {atom spelling : Atom}
    (own : spelling ∈ catalog.group spelling) :
    spelling ∈ catalog.group atom ↔
      catalog.representative atom = catalog.representative spelling := by
  constructor
  · intro mem
    have same := group_eq_of_mem consistent options mem
    obtain ⟨least, found⟩ := AtomSet.exists_least? mem
    have other : (catalog.group spelling).least? = some least := by rwa [same]
    rw [representative, representative, found, other, Option.getD_some, Option.getD_some]
  · intro same
    have first := (representative_least catalog atom).1
    have second := (representative_least catalog spelling).1
    rw [← group_eq_of_mem consistent options first, same,
      group_eq_of_mem consistent options second]
    exact own

/-- A spelling may repeat in an expanded pattern exactly when its representative may in the pattern
with every leaf made the representative of its group. -/
theorem mayRepeat_expand_representative (pattern : Pattern Atom) {spelling : Atom}
    (own : spelling ∈ catalog.synonymsOf spelling) :
    (pattern.expand catalog).mayRepeat spelling =
      (pattern.bind fun atom => .leaf (catalog.representative atom)).mayRepeat
        (catalog.representative spelling) := by
  have inGroup : spelling ∈ catalog.group spelling := by
    rwa [group_synonym consistent options own]
  refine Pattern.mayRepeat_bind (fun atom => ?_) (fun atom => ?_) pattern
  · have member : spelling ∈ catalog.group atom ↔
        catalog.representative atom = catalog.representative spelling :=
      mem_group_iff_representative consistent options inGroup
    rw [count_leaves_spellings, Pattern.leaves, List.count_singleton]
    simp only [member, beq_iff_eq]
  · exact mayRepeat_spellings catalog atom spelling

end Consistent

end Catalog

/-- With a consistent catalog of options, expanding a pattern says of the repetition of a spelling
what the pattern says when all spellings of an option are taken for the least one; and all synonyms
that have one entry in the catalog have one entry in the assembled interface. -/
theorem expand_repeats_representatives {catalog : Catalog} (consistent : catalog.Consistent)
    (options : catalog.OptionsOnly) (pattern : Pattern Atom) :
    (∀ spelling, spelling ∈ catalog.synonymsOf spelling →
      (pattern.expand catalog).mayRepeat spelling =
        (pattern.bind fun atom => .leaf (catalog.representative atom)).mayRepeat
          (catalog.representative spelling)) ∧
    (∀ key, ∀ first ∈ catalog.synonymsOf key, ∀ second ∈ catalog.synonymsOf key,
      catalog.find? first = catalog.find? second →
        Interface.entry? (Interface.assemble pattern catalog) first =
          Interface.entry? (Interface.assemble pattern catalog) second) := by
  constructor
  · intro spelling own
    exact Catalog.mayRepeat_expand_representative consistent options pattern own
  · intro key first inFirst second inSecond same
    exact Catalog.find?_recordRepeats_expand consistent options inFirst inSecond pattern same

open Catalog (verboseCatalog)

/-- A choice with one spelling of an option before another one, which is optional. -/
def mixedPattern : Pattern Atom :=
  .seq [.alt [.leaf (.short 'v'), .leaf (.command "run")], .opt (.leaf (.long "verbose"))]

/-- Neither spelling is mentioned twice, but the option is, so both spellings may repeat. -/
theorem expand_repeats_representatives_mixed :
    verboseCatalog.Consistent ∧ verboseCatalog.OptionsOnly ∧
    (mixedPattern.expand verboseCatalog).mayRepeat (.long "verbose") = true ∧
    (mixedPattern.bind fun atom => .leaf (verboseCatalog.representative atom)).mayRepeat
      (verboseCatalog.representative (.long "verbose")) = true ∧
    Interface.entry? (Interface.assemble mixedPattern verboseCatalog) (.short 'v') =
      Interface.entry? (Interface.assemble mixedPattern verboseCatalog) (.long "verbose") := by
  have consistent : verboseCatalog.Consistent := by decide +kernel
  have options : verboseCatalog.OptionsOnly := by decide +kernel
  obtain ⟨repeats, alike⟩ := expand_repeats_representatives consistent options mixedPattern
  have twice : (mixedPattern.expand verboseCatalog).mayRepeat (.long "verbose") = true := by
    decide +kernel
  refine ⟨consistent, options, twice, ?_, ?_⟩
  · rw [← repeats (.long "verbose") (by decide +kernel)]
    exact twice
  · exact alike (.short 'v') (.short 'v') (by decide +kernel) (.long "verbose") (by decide +kernel)
      (by decide +kernel)

end Synopsis

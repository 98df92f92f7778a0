import Mathlib.Control.Monad.Basic
import Synopsis.Proofs.Catalog.Listing
import Synopsis.Proofs.Description
import Synopsis.Proofs.Interface.Problem
import Synopsis.Proofs.Manual.Reading
import Synopsis.Proofs.Usage.Produced

/-!
# Synonyms in read interfaces

The interface that is read of a text has no problems but synonyms that differ, and those only
where two descriptions overlap. Without problems, every spelling of an option has the same entry.
-/
namespace Synopsis

/-- Where the catalog that is described is consistent and lists options only, the synonyms of an
atom in the assembled interface all have its entry. -/
theorem find?_synonym_assemble {mentions : List Usage.Mention} {entries : List Entry}
    (consistent : ((Catalog.ofMentions mentions).describeAll entries).Consistent)
    (options : ∀ entry ∈ entries, ∀ synonym ∈ entry.synonyms, synonym.isOption = true)
    (pattern : Pattern Atom) {key synonym : Atom} {entry : Entry}
    (found : (Interface.assemble pattern
      ((Catalog.ofMentions mentions).describeAll entries)).catalog.find? key = some entry)
    (listed : synonym ∈ entry.synonyms) :
    (Interface.assemble pattern
      ((Catalog.ofMentions mentions).describeAll entries)).catalog.find? synonym = some entry := by
  generalize named : (Catalog.ofMentions mentions).describeAll entries = catalog at *
  have synonyms : catalog.synonymsOf key = entry.synonyms := by
    rw [← Catalog.synonymsOf_recordRepeats catalog (pattern.expand catalog)]
    exact Catalog.synonymsOf_eq found
  rw [← synonyms] at listed
  obtain ⟨before, known, same⟩ := Catalog.find?_of_mem_synonymsOf listed
  have own : key ∈ catalog.synonymsOf key := by
    rw [← same] at listed ⊢
    rw [← named] at known
    exact Catalog.mem_own_synonyms known listed
  have equal : catalog.find? key = catalog.find? synonym := by
    rw [← same] at listed
    rw [← named] at known consistent ⊢
    rw [known, Catalog.find?_synonym_described consistent known listed]
  have isOption : ∀ key, ∀ synonym ∈ catalog.synonymsOf key, synonym.isOption = true := by
    intro key synonym mem
    rw [← named] at mem
    obtain ⟨entry, among, listed⟩ := Catalog.exists_listing_of_mem_synonymsOf mem
    exact options entry among synonym listed
  exact (Catalog.find?_recordRepeats_expand consistent isOption own listed pattern equal).symm.trans
    found

/-- In an interface that is read of a text, nothing but differing synonyms is a problem; there is
no problem if any two descriptions list the same spellings or none in common; and if there is no
problem, all synonyms of an atom have one and the same entry. -/
theorem readInterface_problems {text : String} {interface : Interface}
    (read : Manual.readInterface text = .ok interface) :
    (∀ problem ∈ interface.problems,
      ∃ first second, problem = .unequalSynonyms first second) ∧
    (∃ block entries, Usage.Block.ofText text.toList = .ok block ∧
      Description.ofLines block.remaining = .ok entries ∧
      (Catalog.Separate entries → interface.problems = [])) ∧
    (interface.problems = [] → ∀ key entry, interface.entry? key = some entry →
      ∀ synonym ∈ entry.synonyms, interface.entry? synonym = some entry) := by
  obtain ⟨block, entries, usage, described, rfl⟩ := Manual.readInterface_eq_ok.1 read
  have flat := Usage.flat_of_produced (Usage.Block.produced_fragment usage)
  have closed := Catalog.closed_described block.fragment.mentions entries
  refine ⟨Interface.unequal_of_mem_problems_assemble flat closed, ?_, ?_⟩
  · refine ⟨block, entries, usage, described, fun separate => ?_⟩
    exact (Interface.problems_assemble_eq_nil flat).2 (Catalog.consistent_described _ separate)
  · intro none key entry found synonym listed
    have consistent := (Interface.problems_assemble_eq_nil flat).1 none
    have options := Description.isOption_of_ofLines described
    exact find?_synonym_assemble consistent options _ found listed

/-- A text whose two descriptions list different spellings, one of them in common. -/
def overlapText : String := "Usage: list -a\n\n  -a, --all\n  -a, --any\n"

/-- The interface that the text describes: the later description holds for the spelling that both
list. -/
def overlapInterface : Interface where
  pattern := .alt [.leaf (.short 'a'), .leaf (.long "any")]
  catalog := .ofList
    [(.short 'a', { Entry.blank with synonyms := .ofList [.short 'a', .long "any"] }),
      (.long "all", { Entry.blank with synonyms := .ofList [.short 'a', .long "all"] }),
      (.long "any", { Entry.blank with synonyms := .ofList [.short 'a', .long "any"] })]

/-- A text whose descriptions have no spelling in common. -/
def sortText : String :=
  "Usage:\n  sort [-r]... -k <n> <x>\n\n  -r, --down  Down\n  -k, --key <n>  Column [default: 1]\n"

/-- What is known about one of the options. -/
def keyEntry : Entry := ⟨.ofList [.short 'k', .long "key"], some "1", true, false⟩

/-- What is known about the other option. -/
def downEntry : Entry := ⟨.ofList [.short 'r', .long "down"], none, false, true⟩

/-- The entries that the descriptions give. -/
def sortEntries : List Entry := [{ downEntry with repeatable := false }, keyEntry]

/-- The interface that the text describes. -/
def sortInterface : Interface where
  pattern := .seq
    [.rep (.opt (.alt [.leaf (.short 'r'), .leaf (.long "down")])),
      .alt [.leaf (.short 'k'), .leaf (.long "key")], .leaf (.argument "x")]
  catalog := .ofList
    [(.short 'k', keyEntry), (.short 'r', downEntry), (.long "down", downEntry),
      (.long "key", keyEntry), (.argument "x", .blank)]

/-- Overlapping descriptions are reported as differing synonyms; descriptions with no spelling in
common are no problem, and then the two spellings of an option have the same entry, repetition
included. -/
theorem readInterface_problems_sort :
    (Manual.readInterface overlapText = .ok overlapInterface ∧
      overlapInterface.problems = [.unequalSynonyms (.short 'a') (.long "all")] ∧
      ∀ problem ∈ overlapInterface.problems,
        ∃ first second, problem = .unequalSynonyms first second) ∧
    (Manual.readInterface sortText = .ok sortInterface ∧ Catalog.Separate sortEntries ∧
      sortInterface.problems = [] ∧
      ∀ synonym ∈ downEntry.synonyms, sortInterface.entry? synonym = some downEntry) := by
  have overlap : Manual.readInterface overlapText = .ok overlapInterface := by decide +kernel
  have sort : Manual.readInterface sortText = .ok sortInterface := by decide +kernel
  have separate : Catalog.Separate sortEntries := by decide +kernel
  have listed : ((Usage.Block.ofText sortText.toList).toOption.bind fun block =>
      (Description.ofLines block.remaining).toOption) = some sortEntries := by decide +kernel
  have found : sortInterface.entry? (.long "down") = some downEntry := by decide +kernel
  obtain ⟨-, ⟨block, entries, usage, described, none⟩, alike⟩ := readInterface_problems sort
  rw [usage] at listed
  have same : entries = sortEntries := by
    have both : (Description.ofLines block.remaining).toOption = some sortEntries := listed
    rw [described] at both
    exact Option.some.inj both
  have sound : sortInterface.problems = [] := none (same ▸ separate)
  have reported : overlapInterface.problems = [.unequalSynonyms (.short 'a') (.long "all")] := by
    decide +kernel
  refine ⟨⟨overlap, reported, (readInterface_problems overlap).1⟩, sort, separate, sound, ?_⟩
  exact alike sound (.long "down") downEntry found

end Synopsis

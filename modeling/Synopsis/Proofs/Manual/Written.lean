import Mathlib.Control.Monad.Basic
import Synopsis.Proofs.Description.Written
import Synopsis.Proofs.Manual.Records

/-!
# Reading a written record

A record that is written below a bare usage line gives a catalog with its spellings and nothing
else. All of them have one entry, which holds just what was written.
-/
namespace Synopsis

open Text (lines trimWhite)

/-- The only entry lists an atom, or none does. -/
theorem Catalog.lastListing_singleton (entry : Entry) (atom : Atom) :
    lastListing [entry] atom = if atom ∈ entry.synonyms then some entry else none := by
  rw [lastListing_cons]
  rfl

namespace Manual

open Description (Record Spelling)

/-- A written record is read back: below a bare usage line, the catalog has an entry for each of its
spellings and no other. The entry is the same for all of them. Its synonyms are these spellings, it
takes a value if any of them has a placeholder, and its default value stands in the first tag of
what follows the spellings, if there is a tag. -/
theorem readCatalog_record (record : Record) :
    ∃ catalog, readCatalog ("Usage:\n  p\n\n" ++ String.ofList record.text) = .ok catalog ∧
      ∀ atom, catalog.find? atom =
        if atom ∈ record.spellings.map Spelling.option then
          some {
            synonyms := .ofList (record.spellings.map Spelling.option)
            fallback := record.value.map fun inside => String.ofList (trimWhite inside)
            takesValue := record.spellings.any fun spelling => !spelling.value.isEmpty
            repeatable := false }
        else none := by
  have closed : "Usage:\n  p\n\n".toList.getLast? = some '\n' := by decide +kernel
  have bare : readCatalog "Usage:\n  p\n\n" = .ok .empty := by decide +kernel
  have opens : ∃ line ∈ (lines (String.ofList record.text).toList).head?,
      Description.isDashLine line = true := by
    obtain ⟨first, later, same, dash, -⟩ := record.exists_lines
    rw [String.toList_ofList, same]
    exact ⟨first, rfl, dash⟩
  rw [readCatalog_with closed opens bare, String.toList_ofList, record.ofLines_text]
  refine ⟨_, rfl, fun atom => ?_⟩
  rw [Catalog.find?_describeAll, AtomMap.find?_empty, Option.or_none,
    Catalog.lastListing_singleton, Description.entry, List.map_map, List.any_map]
  simp only [AtomSet.mem_ofList]
  rfl

/-- A record with both kinds of placeholder, with a spelling without one, and with a tag that goes
on in a further line. -/
def outputRecord : Record where
  indent := "  ".toList
  first :=
    { option := .short 'o'
      value := " FILE".toList
      isOption := rfl
      formed := by decide
      placed := .inr ⟨' ', "FILE".toList, rfl, .inr rfl, .inr ⟨by decide, Text.ends_nil _⟩⟩ }
  others :=
    [({ text := ", ".toList
        apart := ⟨',', [' '], rfl, .inl rfl, List.all_eq_true.1 (by decide)⟩ },
      { option := .long "output"
        value := "=<file>".toList
        isOption := rfl
        formed := by decide +kernel
        placed := .inr
          ⟨'=', "<file>".toList, rfl, .inl rfl, .inl ⟨"file".toList, by decide, rfl⟩⟩ }),
    ({ text := "\t".toList
       apart := ⟨'\t', [], rfl, .inr (by decide), List.forall_mem_nil _⟩ },
      { option := .short 'O'
        value := []
        isOption := rfl
        formed := by decide
        placed := .inl rfl })]
  ending := "  Where to write. [Default:".toList
  more := ["    out.txt] Or print.".toList, []]
  value := some "\n    out.txt".toList
  blank := List.all_eq_true.1 (by decide)
  ends := @Description.Ending.description "  ".toList "Where to write. [Default:".toList
    (by decide) (List.all_eq_true.1 (by decide)) (by decide) (by decide)
  single := by decide
  own := by decide
  tagged := @Description.tagged_of_findTag _ "[Default:\n    out.txt] Or print.\n".toList
    "\n    out.txt".toList " Or print.\n".toList (by decide) (by decide)

/-- The record is read back from its text. -/
theorem readCatalog_record_output :
    ∃ catalog, readCatalog ("Usage:\n  p\n\n" ++
        "  -o FILE, --output=<file>\t-O  Where to write. [Default:\n    out.txt] Or print.\n") =
          .ok catalog ∧
      catalog.find? (.short 'O') =
        some ⟨.ofList [.short 'o', .long "output", .short 'O'], some "out.txt", true, false⟩ ∧
      catalog.find? (.short 'p') = none := by
  have text : String.ofList outputRecord.text =
      "  -o FILE, --output=<file>\t-O  Where to write. [Default:\n    out.txt] Or print.\n" := by
    decide +kernel
  obtain ⟨catalog, read, known⟩ := readCatalog_record outputRecord
  rw [text] at read
  refine ⟨catalog, read, ?_, ?_⟩
  · rw [known]
    decide +kernel
  · rw [known]
    decide +kernel

end Manual

end Synopsis

import Synopsis.Proofs.Description.Carriage
import Synopsis.Proofs.Interface
import Synopsis.Proofs.Manual.Refused

/-!
# Manuals with carriage returns

A manual is read alike whether its lines end with bare line feeds or with carriage returns before
them. Only a default value that goes over several lines keeps its line breaks as they are written.
-/
namespace Synopsis

open Text (crlf crlfString)

namespace Catalog

/-- The catalogs have the same entries but for carriage returns in default values. -/
def Alike (catalog other : Catalog) : Prop :=
  ∀ atom, other.find? atom = (catalog.find? atom).map Entry.crlf

/-- The last entry that lists an atom is the same one. -/
theorem lastListing_crlf (entries : List Entry) (atom : Atom) :
    lastListing (entries.map Entry.crlf) atom = (lastListing entries atom).map Entry.crlf := by
  induction entries with
  | nil => rfl
  | cons first later ih =>
    have listed : first.crlf.synonyms = first.synonyms := rfl
    rw [List.map_cons, lastListing_cons, lastListing_cons, ih, listed, Option.map_or]
    congr 1
    split <;> rfl

/-- Mentioned options have no default values. -/
theorem alike_ofMentions (mentions : List Usage.Mention) :
    Alike (ofMentions mentions) (ofMentions mentions) := by
  intro atom
  rw [find?_ofMentions]
  split <;> rfl

/-- Described options have default values with carriage returns. -/
theorem alike_describeAll {catalog other : Catalog} (alike : Alike catalog other)
    (entries : List Entry) :
    Alike (catalog.describeAll entries) (other.describeAll (entries.map Entry.crlf)) := by
  intro atom
  rw [find?_describeAll, find?_describeAll, lastListing_crlf, alike atom, Option.map_or]

/-- Alike catalogs have the same spellings. -/
theorem Alike.spellings {catalog other : Catalog} (alike : Alike catalog other) :
    other.spellings = catalog.spellings := by
  funext atom
  rw [Catalog.spellings, Catalog.spellings, alike atom]
  cases catalog.find? atom <;> rfl

/-- Alike catalogs are alike after the repeatability of leaves is recorded. -/
theorem Alike.recordRepeats {catalog other : Catalog} (alike : Alike catalog other)
    (pattern : Pattern Atom) :
    Alike (catalog.recordRepeats pattern) (other.recordRepeats pattern) := by
  intro atom
  rw [find?_recordRepeats, find?_recordRepeats, alike atom]
  split
  · cases catalog.find? atom <;> rfl
  · rfl

end Catalog

namespace Manual

/-- The parts of a text without carriage returns are the same with them. -/
theorem parts_crlf {text : List Char} (clean : '\r' ∉ text) :
    match parts text with
    | .error fault => parts (crlf text) = .error fault.crlf
    | .ok (pattern, catalog) =>
      ∃ other, parts (crlf text) = .ok (pattern, other) ∧ catalog.Alike other := by
  rw [parts, parts, Usage.Block.ofText_crlf clean]
  cases done : Usage.Block.ofText text with
  | error fault => rfl
  | ok block =>
    have lined := (Usage.Block.remaining_of_ofText done).1
    have described := Description.ofLines_crlf lined
    simp only [Except.map, Except.mapError, Usage.Block.crlf, described]
    cases Description.ofLines block.remaining with
    | error fault => rfl
    | ok entries =>
      exact ⟨_, rfl, Catalog.alike_describeAll (Catalog.alike_ofMentions _) entries⟩

/-- An accepted text without carriage returns has the same interface with them. -/
theorem readInterface_crlfString_ok {text : String} {interface : Interface}
    (clean : '\r' ∉ text.toList) (read : readInterface text = .ok interface) :
    ∃ other, readInterface (crlfString text) = .ok other ∧ other.pattern = interface.pattern ∧
      ∀ atom, other.entry? atom = (interface.entry? atom).map Entry.crlf := by
  have both := parts_crlf clean
  rw [readInterface] at read
  rw [readInterface, crlfString, String.toList_ofList]
  cases done : parts text.toList with
  | error fault =>
    rw [done] at read
    contradiction
  | ok found =>
    obtain ⟨pattern, catalog⟩ := found
    rw [done] at read both
    obtain ⟨other, joined, alike⟩ := both
    obtain rfl := Except.ok.inj read
    have expanded : pattern.expand other = pattern.expand catalog := by
      rw [Pattern.expand, Pattern.expand, alike.spellings]
    refine ⟨.assemble pattern other, by rw [joined]; rfl, expanded, fun atom => ?_⟩
    have recorded := alike.recordRepeats (pattern.expand catalog) atom
    rw [Interface.entry?, Interface.entry?, Interface.assemble, Interface.assemble, expanded]
    exact recorded

/-- A refused text without carriage returns is refused at the same place with them. -/
theorem readInterface_crlfString_error {text : String} {position : Position} {cause : Cause}
    (clean : '\r' ∉ text.toList) (read : readInterface text = .error ⟨position, cause⟩) :
    readInterface (crlfString text) = .error ⟨position, cause.carriage⟩ := by
  obtain ⟨fault, failed, same⟩ := readInterface_eq_error.1 read
  obtain ⟨rfl, rfl⟩ := Diagnostic.mk.inj same
  have both := parts_crlf clean
  rw [failed] at both
  refine readInterface_eq_error.2 ⟨fault.crlf, ?_, ?_⟩
  · rw [crlfString, String.toList_ofList]
    exact both
  · rw [crlfString, String.toList_ofList]
    exact (Fault.diagnostic_crlf (left_of_parts failed)).symm

/-- Line breaks of both forms are read alike. A text without carriage returns is accepted exactly
where it is with one before each line feed. Then the pattern is the same, and so is what is known
about each atom, but that its default value has the carriage returns in it. Where it is refused, the
position and the message are the same, and so is the cause, but that a carriage return may be found
where a line feed was. -/
theorem readInterface_crlf {text : String} (clean : '\r' ∉ text.toList) :
    ((∃ interface, readInterface (crlfString text) = .ok interface) ↔
      ∃ interface, readInterface text = .ok interface) ∧
    (∀ interface, readInterface text = .ok interface →
      ∃ other, readInterface (crlfString text) = .ok other ∧ other.pattern = interface.pattern ∧
        ∀ atom, other.entry? atom = (interface.entry? atom).map Entry.crlf) ∧
    ∀ position cause, readInterface text = .error ⟨position, cause⟩ →
      readInterface (crlfString text) = .error ⟨position, cause.carriage⟩ ∧
        (Diagnostic.mk position cause.carriage).message = (Diagnostic.mk position cause).message := by
  refine ⟨⟨?_, ?_⟩, fun interface read => readInterface_crlfString_ok clean read,
    fun position cause read => ⟨readInterface_crlfString_error clean read, ?_⟩⟩
  · rintro ⟨interface, accepted⟩
    cases read : readInterface text with
    | ok found => exact ⟨found, rfl⟩
    | error diagnostic =>
      rw [readInterface_crlfString_error clean read] at accepted
      contradiction
  · rintro ⟨interface, read⟩
    obtain ⟨other, accepted, -⟩ := readInterface_crlfString_ok clean read
    exact ⟨other, accepted⟩
  · rw [Diagnostic.message, Cause.message_carriage, Diagnostic.message]

/-- A default value over two lines has a carriage return more in the text with them. -/
theorem readInterface_crlf_folded :
    ∃ other, readInterface "Usage: p [-a]\r\n\r\n  -a X  [default: one\r\n two]\r\n" = .ok other ∧
      (other.entry? (.short 'a')).bind Entry.fallback = some "one\r\n two" := by
  let text := "Usage: p [-a]\n\n  -a X  [default: one\n two]\n"
  have clean : '\r' ∉ text.toList := by decide +kernel
  have written : crlfString text = "Usage: p [-a]\r\n\r\n  -a X  [default: one\r\n two]\r\n" := by
    decide +kernel
  let known : Entry := ⟨.ofList [.short 'a'], some "one\n two", true, false⟩
  let pattern : Pattern Atom := .opt (.leaf (.short 'a'))
  have read : readInterface text = .ok ⟨pattern, .ofList [(.short 'a', known)]⟩ := by
    decide +kernel
  obtain ⟨other, accepted, -, entries⟩ := (readInterface_crlf clean).2.1 _ read
  refine ⟨other, written ▸ accepted, ?_⟩
  rw [entries]
  decide +kernel

end Manual

end Synopsis

import Synopsis.Usage.Block

/-!
# The header of a usage block

A text has a header where one of the two header words begins at a boundary of words, that is,
between a character that belongs to a word and one that does not. This is where the header is found.
-/
namespace Synopsis.Usage

open Text

/-- Exactly one of the characters at two sides of a place belongs to a word. -/
def isBoundary (before rest : List Char) : Bool :=
  before.getLast?.any isWordChar != rest.head?.any isWordChar

/-- A header word stands somewhere in the text, at a boundary of words. -/
def HasHeader (text : List Char) : Prop :=
  ∃ before rest, text = before ++ rest ∧ isBoundary before rest = true ∧
    ("Usage:".toList <+: rest ∨ "usage:".toList <+: rest)

/-- A header is read exactly where a header word stands. -/
theorem header?_ne_none_iff {text : List Char} :
    header? text ≠ none ↔ "Usage:".toList <+: text ∨ "usage:".toList <+: text := by
  constructor
  · intro found
    obtain ⟨rest, read⟩ := Option.ne_none_iff_exists'.1 found
    unfold header? at read
    split at read
    · rw [after?_eq_some_iff] at read
      exact .inl ⟨rest, by rw [read]; rfl⟩
    · rw [after?_eq_some_iff] at read
      exact .inr ⟨rest, by rw [read]; rfl⟩
    · contradiction
  · rintro (⟨rest, rfl⟩ | ⟨rest, rfl⟩)
    · exact nofun
    · exact nofun

/-- A header is found exactly where one stands after a character that belongs to no word, or at the
front unless that is within a word. -/
theorem findHeader_ne_none_iff {inWord : Bool} {text : List Char} :
    findHeader inWord text ≠ none ↔
      ∃ before rest, text = before ++ rest ∧ header? rest ≠ none ∧
        (before.getLast?.map isWordChar).getD inWord = false := by
  induction text generalizing inWord with
  | nil =>
    constructor
    · exact fun found => absurd rfl found
    · rintro ⟨before, rest, split, found, -⟩
      obtain ⟨-, rfl⟩ := List.append_eq_nil_iff.1 split.symm
      exact absurd rfl found
  | cons c text ih =>
    have last : ∀ before : List Char, ((c :: before).getLast?.map isWordChar).getD inWord =
        (before.getLast?.map isWordChar).getD (isWordChar c) := by
      intro before
      rw [List.getLast?_cons]
      cases before.getLast? <;> rfl
    have step : findHeader inWord (c :: text) ≠ none ↔
        (inWord = false ∧ header? (c :: text) ≠ none) ∨ findHeader (isWordChar c) text ≠ none := by
      rw [findHeader]
      cases inWord <;> cases header? (c :: text) <;> simp
    rw [step, ih]
    constructor
    · rintro (⟨rfl, here⟩ | ⟨before, rest, rfl, found, outside⟩)
      · exact ⟨[], c :: text, rfl, here, rfl⟩
      · exact ⟨c :: before, rest, rfl, found, (last before).trans outside⟩
    · rintro ⟨before, rest, split, found, outside⟩
      cases before with
      | nil =>
        obtain rfl : c :: text = rest := split
        exact .inl ⟨outside, found⟩
      | cons d before =>
        obtain ⟨rfl, rfl⟩ := List.cons.inj split
        exact .inr ⟨before, rest, rfl, found, (last before).symm.trans outside⟩

/-- Before a header word a boundary of words is a place after no word. -/
theorem isBoundary_of_header {before rest : List Char} (header : header? rest ≠ none) :
    isBoundary before rest = true ↔ (before.getLast?.map isWordChar).getD false = false := by
  have word : rest.head?.any isWordChar = true := by
    rcases header?_ne_none_iff.1 header with ⟨after, rfl⟩ | ⟨after, rfl⟩
    · exact (by decide : isWordChar 'U' = true)
    · exact (by decide : isWordChar 'u' = true)
  rw [isBoundary, word]
  cases before.getLast? with
  | none => exact ⟨fun _ => rfl, fun _ => rfl⟩
  | some c =>
    rw [Option.any_some, Option.map_some, Option.getD_some]
    cases isWordChar c <;> decide

/-- A text has no header exactly where none is found. -/
theorem afterHeader?_eq_none_iff {text : List Char} :
    afterHeader? text = none ↔ ¬ HasHeader text := by
  have found : afterHeader? text ≠ none ↔ HasHeader text := by
    rw [afterHeader?, findHeader_ne_none_iff, HasHeader]
    refine exists_congr fun before => exists_congr fun rest => and_congr_right fun _ => ?_
    rw [← header?_ne_none_iff, and_comm (b := header? rest ≠ none)]
    exact and_congr_right fun header => (isBoundary_of_header header).symm
  rw [← found, Decidable.not_not]

end Synopsis.Usage

import Synopsis.Proofs.Usage.Open

/-!
# Usage lines

A usage line is read alike after a change to it that keeps its words and treats the blanks between
them alike, such as one that keeps lines. Where it is refused, a part of it is left that begins with
the character found, and this is no blank.
-/
namespace Synopsis

open Text

/-- The text does not go on as expected where the fault was met, which is not at a blank. -/
structure Fault.Stands (fault : Fault) (text : List Char) : Prop where
  /-- What is left ends the text. -/
  left : fault.rest <:+ text
  /-- What is found is the first character of what is left. -/
  found : ∃ what, fault.cause = .unexpected what fault.rest.head?
  /-- No blank is left at the front. -/
  skipped : Ends isBlank fault.rest

/-- What is not expected after blanks is a fault there. -/
theorem Fault.stands_expected (what : String) {text rest : List Char} (suffix : rest <:+ text) :
    (Fault.expected what (skipBlanks rest)).Stands text where
  left := (List.dropWhile_suffix _).trans suffix
  found := ⟨what, rfl⟩
  skipped := ends_dropWhile isBlank rest

/-- A fault in what is left of a text is one in the text. -/
theorem Fault.Stands.of_suffix {fault : Fault} {text rest : List Char} (stands : fault.Stands rest)
    (suffix : rest <:+ text) : fault.Stands text :=
  { stands with left := stands.left.trans suffix }

/-- What was expected is expected at the same place of a changed text. -/
theorem Fault.Stands.changed_eq {fault : Fault} {text : List Char} (stands : fault.Stands text) :
    ∃ what, fault = .expected what fault.rest ∧
      ∀ f, fault.changed f = .expected what (f fault.rest) := by
  obtain ⟨what, found⟩ := stands.found
  refine ⟨what, ?_, fun f => ?_⟩
  · rw [Fault.expected, ← found]
  · rw [Fault.changed, found]

namespace Usage

/-- A bracket that is not closed is missed where no blank is left. -/
theorem Unclosed.stands {text : List Char} {fault : Fault} (unclosed : Unclosed text fault) :
    fault.Stands text := by
  induction unclosed with
  | here bracket passed =>
    exact Fault.stands_expected _ (passed.whole.within.suffix.trans (List.suffix_cons _ _))
  | inside bracket passed inner ih =>
    exact ih.of_suffix (passed.whole.within.suffix.trans (List.suffix_cons _ _))

/-- Where an expression is refused with any bound on its levels of brackets. -/
theorem expressionTo_stands (depth : Nat) {text : List Char} {fault : Fault}
    (refused : expressionTo depth text = .failed fault) : fault.Stands text := by
  have leads := expressionTo_leads depth text
  rw [refused] at leads
  exact leads.stands

/-- Where alternatives are refused, with any bound on the levels of brackets in them. -/
theorem alternatives_stands (depth : Nat) {text : List Char} {fault : Fault}
    (refused : alternatives (expressionTo depth) text = .error fault) : fault.Stands text := by
  have ⟨passes, _⟩ := passes_alternatives (accepts_of_leads (expressionTo_leads depth))
    (expressionTo_advances depth) (expressionTo_remains depth) text
  rw [refused] at passes
  obtain ⟨place, passed, failed⟩ := passes
  exact (expressionTo_stands depth failed).of_suffix passed.whole.within.suffix

/-- What is left of a usage line after the name of the program ends the line. -/
theorem skipProgram_suffix (line : List Char) : skipProgram line <:+ line :=
  (List.dropWhile_suffix _).trans (List.dropWhile_suffix _)

/-- What is left of a line after a usage ends the line. -/
theorem usageLine_suffix {line rest : List Char} {usage : Fragment}
    (read : usageLine line = .ok (usage, rest)) : rest <:+ line := by
  obtain ⟨⟨pieces, cut, -⟩, -⟩ := covers_of_usageLine read
  have program := skipProgram_suffix line
  rw [cut.joined] at program
  exact (List.suffix_append _ _).trans program

/-- Where a usage line is refused. -/
theorem usageLine_stands {line : List Char} {fault : Fault}
    (refused : usageLine line = .error fault) : fault.Stands line := by
  rw [usageLine] at refused
  split at refused
  · next inside =>
    obtain rfl := Except.error.inj refused
    exact (alternatives_stands _ inside).of_suffix (skipProgram_suffix line)
  · next fragment rest inside =>
    dsimp only at refused
    split at refused
    · contradiction
    · obtain rfl := Except.error.inj refused
      have branched := alternatives_accepts (expressionTo_remains _) inside
      exact Fault.stands_expected _ ((remains_of_branched branched).trans (skipProgram_suffix line))

section Transparent

variable {f : List Char → List Char} (clear : Transparent f) (words : Keeps Pauses f)

include clear words

/-- The end of a line is where it was after blanks. -/
theorem atLineEnd_changed (text : List Char) :
    atLineEnd (f (skipBlanks text)) = atLineEnd (skipBlanks text) := by
  have ends : ∀ other, Ends isBlank (skipBlanks other) := ends_dropWhile isBlank
  rcases words (skipBlanks text) with ⟨pauses, same⟩ | ⟨c, rest, split, same⟩
  · have skipped := clear.skipBlanks text
    rw [← skipped] at same ⊢
    rw [atLineEnd_iff.2 (pauses.stops (ends text)), atLineEnd_iff.2 (same.stops (ends (f text)))]
  · rw [same, split, atLineEnd, atLineEnd]

/-- The name of the program is skipped alike. -/
theorem skipProgram_changed (line : List Char) : skipProgram (f line) = f (skipProgram line) := by
  rw [skipProgram, clear.skipBlanks, dropWhile_keeps words (·.ends (by decide)), skipProgram]

/-- A usage line is read alike after a change that keeps its words and the blanks between them. -/
theorem usageLine_changed (line : List Char) : usageLine (f line) = changed f (usageLine line) := by
  rw [usageLine, usageLine, skipProgram_changed clear words, lineAlternatives_changed clear]
  cases lineAlternatives (skipProgram line) with
  | error fault => rfl
  | ok found =>
    obtain ⟨fragment, rest⟩ := found
    simp only [changed, clear.skipBlanks, atLineEnd_changed clear words]
    split <;> rfl

end Transparent

section KeepsLines

variable {f : List Char → List Char} (keeps : KeepsLines f)

include keeps

/-- The end of a line is where it was. -/
theorem atLineEnd_keeps (text : List Char) : atLineEnd (f text) = atLineEnd text := by
  rcases keeps.lines text with ⟨stops, same⟩ | ⟨c, rest, rfl, same⟩
  · rw [atLineEnd_iff.2 stops, atLineEnd_iff.2 same]
  · rw [same, atLineEnd, atLineEnd]

/-- A usage line is read alike after a change that keeps lines. -/
theorem usageLine_keeps (line : List Char) : usageLine (f line) = changed f (usageLine line) :=
  usageLine_changed (transparent_of_keepsLines keeps) keeps.words line

end KeepsLines

end Usage

end Synopsis

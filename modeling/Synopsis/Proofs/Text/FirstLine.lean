import Mathlib.Data.List.DropRight
import Synopsis.Proofs.Text.Lines

/-!
# The first line of a text

A text that is not empty is its first line, carriage returns and a line feed that end it, and the
text after it, of which the lines are the other lines of the text. Skipping the first line advances
in the text.
-/
namespace Synopsis.Text

/-- The first line of a text, without the line break that ends it. -/
def firstLine (text : List Char) : List Char :=
  (text.takeWhile fun c => c ≠ '\n').rdropWhile fun c => c = '\r'

/-- The text after its first line. -/
def skipLine (text : List Char) : List Char := (text.dropWhile fun c => c ≠ '\n').tail

/-- A text with its first line, what ends this line, and the text after it. -/
structure Opened (text returns feed later : List Char) : Prop where
  /-- The line feed is the first one. -/
  single : '\n' ∉ firstLine text ++ returns
  /-- Carriage returns come before the line feed. -/
  carriage : ∀ c ∈ returns, c = '\r'
  /-- Only a text of one line may be without a line feed. -/
  ends : feed = ['\n'] ∨ feed = [] ∧ later = []
  /-- All of the text is there. -/
  joined : text = firstLine text ++ returns ++ (feed ++ later)
  /-- The first line is the first one of the lines. -/
  lines : lines text = (firstLine text ++ returns ++ feed) :: lines later

/-- A text that is not empty has a first line. -/
theorem exists_opened {text : List Char} (filled : text ≠ []) :
    ∃ returns feed, Opened text returns feed (skipLine text) := by
  have body : firstLine text ++ (text.takeWhile fun c => c ≠ '\n').rtakeWhile (fun c => c = '\r') =
      text.takeWhile fun c => c ≠ '\n' := List.rdropWhile_append_rtakeWhile
  have carriage : ∀ c ∈ (text.takeWhile fun c => c ≠ '\n').rtakeWhile (fun c => c = '\r'),
      c = '\r' := fun c mem => by simpa using List.mem_rtakeWhile_imp mem
  have single : '\n' ∉ text.takeWhile fun c => c ≠ '\n' := by
    intro mem
    have other := List.mem_takeWhile_imp mem
    contradiction
  have split : text.takeWhile (fun c => c ≠ '\n') ++ text.dropWhile (fun c => c ≠ '\n') = text :=
    List.takeWhile_append_dropWhile
  generalize (text.takeWhile fun c => c ≠ '\n').rtakeWhile _ = returns at body carriage
  generalize text.takeWhile _ = line at body single split
  subst body
  refine ⟨returns, ?_⟩
  cases left : text.dropWhile fun c => c ≠ '\n' with
  | nil =>
    have none : skipLine text = [] := by rw [skipLine, left, List.tail_nil]
    rw [left, List.append_nil] at split
    have own := lines_single single (by rwa [split])
    rw [split] at own
    exact ⟨[], single, carriage, .inr ⟨rfl, none⟩, by rw [none, split]; simp,
      by rw [none, split, own]; simp [lines]⟩
  | cons c later =>
    have feed : c = '\n' := by
      have first := List.head?_dropWhile_not (fun c => decide (c ≠ '\n')) text
      rw [left] at first
      simpa using first
    have skipped : skipLine text = later := by rw [skipLine, left, List.tail_cons]
    rw [left, feed] at split
    have own := lines_append single later
    rw [split] at own
    exact ⟨['\n'], single, carriage, .inl rfl, skipped ▸ split.symm, skipped ▸ own⟩

/-- What ends the first line is white space. -/
theorem Opened.white {text returns feed later : List Char}
    (opened : Opened text returns feed later) : ∀ c ∈ returns ++ feed, isWhite c = true := by
  intro c mem
  rcases List.mem_append.1 mem with inReturns | inFeed
  · rw [opened.carriage c inReturns]
    decide
  · rcases opened.ends with rfl | ⟨rfl, -⟩
    · rw [List.mem_singleton.1 inFeed]
      decide
    · exact absurd inFeed List.not_mem_nil

/-- The first one of the lines of a text is its first line with white space after it. -/
theorem firstLine_of_lines {text line : List Char} {later : List (List Char)}
    (first : lines text = line :: later) :
    ∃ ending, line = firstLine text ++ ending ∧ ∀ c ∈ ending, isWhite c = true := by
  have filled : text ≠ [] := by
    rintro rfl
    contradiction
  obtain ⟨returns, feed, opened⟩ := exists_opened filled
  obtain ⟨rfl, -⟩ := List.cons.inj (opened.lines.symm.trans first)
  exact ⟨returns ++ feed, List.append_assoc .., opened.white⟩

/-- The lines after the first one are those of the text after it. -/
theorem lines_skipLine (text : List Char) : lines (skipLine text) = (lines text).tail := by
  by_cases filled : text = []
  · subst filled
    rfl
  · obtain ⟨returns, feed, opened⟩ := exists_opened filled
    rw [opened.lines, List.tail_cons]

/-- The text after a line does not depend on where in this line a text begins. -/
theorem skipLine_append {front : List Char} (single : '\n' ∉ front) (rest : List Char) :
    skipLine (front ++ rest) = skipLine rest := by
  have other : ∀ c ∈ front, decide (c ≠ '\n') = true := fun c mem =>
    decide_eq_true fun same => single (same ▸ mem)
  rw [skipLine, List.dropWhile_append_of_pos other, ← skipLine]

/-- What is left after the first line ends the text. -/
theorem skipLine_suffix (text : List Char) : skipLine text <:+ text :=
  (List.tail_suffix _).trans (List.dropWhile_suffix _)

/-- Skipping the first line advances in a text. -/
theorem skipLine_advances {text : List Char} (filled : text ≠ []) :
    Advances text (skipLine text) := by
  refine advances_of_ne (skipLine_suffix text) fun same => ?_
  have length : (lines text).length = (lines text).tail.length := by rw [← lines_skipLine, same]
  have some := List.length_pos_iff.2 (lines_ne_nil filled)
  rw [List.length_tail] at length
  omega

end Synopsis.Text

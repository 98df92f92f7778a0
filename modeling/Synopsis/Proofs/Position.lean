import Synopsis.Diagnostic
import Synopsis.Proofs.Text.Feed

/-!
# Positions after complete lines

A position after complete lines counts these lines, and begins again with the first column. So a
place in a text is some lines further down in a text with complete lines before it.
-/
namespace Synopsis.Position

open Text (Closed)

/-- The position some lines further down. -/
def lower (position : Position) (lines : Nat) : Position :=
  ⟨position.line + lines, position.column⟩

/-- More characters lead as far from a position as from one some lines further down. -/
theorem foldl_advance_lower (more : List Char) (position : Position) (lines : Nat) :
    more.foldl advance (position.lower lines) = (more.foldl advance position).lower lines := by
  induction more generalizing position with
  | nil => rfl
  | cons c rest ih =>
    have step : (position.lower lines).advance c = (position.advance c).lower lines := by
      by_cases feed : c = '\n'
      · simp only [advance, lower, if_pos feed, Nat.add_right_comm]
      · simp only [advance, lower, if_neg feed]
    rw [List.foldl_cons, List.foldl_cons, step, ih]

/-- After complete lines comes the first column of the next line. -/
theorem after_closed {read : List Char} (closed : Closed read) :
    after read = start.lower (read.count '\n') := by
  obtain ⟨body, rfl⟩ := List.getLast?_eq_some_iff.1 closed
  have line := after_line (body ++ ['\n'])
  have column : (after (body ++ ['\n'])).column = 1 := by
    rw [after, List.foldl_append]
    rfl
  rw [lower, start, Nat.add_comm 1, ← line, ← column]

/-- Within the first line the column counts the characters. -/
theorem after_inline {read : List Char} (single : '\n' ∉ read) :
    after read = ⟨1, read.length + 1⟩ := by
  have general : ∀ (more : List Char) (p : Position), '\n' ∉ more →
      more.foldl advance p = ⟨p.line, p.column + more.length⟩ := by
    intro more
    induction more with
    | nil => exact fun p _ => rfl
    | cons c rest ih =>
      intro p single
      have ⟨other, more⟩ := List.ne_and_not_mem_of_not_mem_cons single
      rw [List.foldl_cons, ih _ more, advance, if_neg other.symm, List.length_cons, Nat.add_assoc,
        Nat.add_comm 1]
  rw [after, general read start single, start, Nat.add_comm 1]

/-- What is left of a text is found at the same place if more text follows. -/
theorem before_append_right {text rest : List Char} (suffix : rest <:+ text) (later : List Char) :
    before (text ++ later) (rest ++ later) = before text rest := by
  obtain ⟨front, rfl⟩ := suffix
  rw [List.append_assoc, before_append, before_append]

/-- Lines are counted together. -/
theorem lower_lower (position : Position) (one other : Nat) :
    (position.lower one).lower other = position.lower (one + other) := by
  rw [lower, lower, lower, Nat.add_assoc]

/-- After complete lines a text ends as many lines further down. -/
theorem after_append_closed {read : List Char} (closed : Closed read) (text : List Char) :
    after (read ++ text) = (after text).lower (read.count '\n') := by
  rw [after, List.foldl_append, ← after, after_closed closed, foldl_advance_lower, ← after]

/-- What is left of a text is found as many lines further down as there are complete lines before
the text. -/
theorem before_append_closed {read text rest : List Char} (closed : Closed read)
    (suffix : rest <:+ text) :
    before (read ++ text) rest = (before text rest).lower (read.count '\n') := by
  obtain ⟨front, rfl⟩ := suffix
  rw [← List.append_assoc, before_append, before_append, after_append_closed closed]

/-- The bytes of the front of a text take up exactly the front. -/
theorem takeBytes_append (front rest : List Char) :
    takeBytes (String.ofList front).utf8ByteSize (front ++ rest) = front := by
  induction front with
  | nil =>
    cases rest with
    | nil => rfl
    | cons c rest =>
      have positive : ¬ c.utf8Size ≤ 0 := Nat.not_le.2 c.utf8Size_pos
      exact if_neg positive
  | cons c front ih =>
    have size : (String.ofList (c :: front)).utf8ByteSize =
        c.utf8Size + (String.ofList front).utf8ByteSize := by
      rw [String.ofList_cons, String.utf8ByteSize_append, String.utf8ByteSize_singleton]
    rw [size, List.cons_append, takeBytes, if_pos (Nat.le_add_right _ _), Nat.add_sub_cancel_left,
      ih]

/-- The number of bytes before the rest of a text is the offset of the rest. -/
theorem atByte_eq_before {text : String} {front rest : List Char}
    (split : text.toList = front ++ rest) :
    atByte text (String.ofList front).utf8ByteSize = before text.toList rest := by
  rw [atByte, split, takeBytes_append, before_append]

end Synopsis.Position

/-!
# Positions in a text

A position counts lines by the line feeds before it and columns by the characters since the
last of them, both from one.
-/
namespace Synopsis

/-- A line and a column, both counted from one. -/
structure Position where
  /-- One more than the number of line feeds before. -/
  line : Nat
  /-- One more than the number of characters since the last line feed. -/
  column : Nat
deriving DecidableEq, Repr

namespace Position

/-- Positions are ordered by line, then by column. -/
instance : LE Position where
  le p q := p.line < q.line ∨ (p.line = q.line ∧ p.column ≤ q.column)

instance (p q : Position) : Decidable (p ≤ q) :=
  inferInstanceAs (Decidable (p.line < q.line ∨ (p.line = q.line ∧ p.column ≤ q.column)))

/-- The beginning of every text. -/
def start : Position := ⟨1, 1⟩

/-- The position after one more character. -/
def advance (p : Position) (c : Char) : Position :=
  if c = '\n' then ⟨p.line + 1, 1⟩ else ⟨p.line, p.column + 1⟩

/-- The position after the characters read so far. -/
def after (read : List Char) : Position := read.foldl advance start

/-- The position where the text `rest` is left of the text `text`, whose end it is. -/
def before (text rest : List Char) : Position :=
  after (text.take (text.length - rest.length))

/-- The longest prefix of whole characters that takes up at most so many bytes in UTF-8. -/
def takeBytes : Nat → List Char → List Char
  | _, [] => []
  | bytes, c :: rest =>
    if c.utf8Size ≤ bytes then c :: takeBytes (bytes - c.utf8Size) rest else []

/-- The position of a byte offset into the UTF-8 form of a text. An offset inside a character
counts as its beginning, and one beyond the text as its end. -/
def atByte (text : String) (offset : Nat) : Position := after (takeBytes offset text.toList)

/-- The position as it is written in messages. -/
def text (p : Position) : String :=
  "line " ++ toString p.line ++ ", column " ++ toString p.column

/-- What has been read before the rest of a text fixes the position of the rest. -/
theorem before_append (read rest : List Char) : before (read ++ rest) rest = after read := by
  rw [before, List.length_append, Nat.add_sub_cancel, List.take_left' rfl]

/-- The line of a position counts the line feeds before it. -/
theorem after_line (read : List Char) : (after read).line = read.count '\n' + 1 := by
  have general : ∀ (more : List Char) (p : Position),
      (more.foldl advance p).line = p.line + more.count '\n' := by
    intro more
    induction more with
    | nil => intro p; rfl
    | cons c rest ih =>
      intro p
      rw [List.foldl_cons, ih, List.count_cons]
      by_cases feed : c = '\n'
      · simp [advance, feed]; omega
      · simp [advance, feed]
  rw [after, general, start, Nat.add_comm]

end Position

end Synopsis

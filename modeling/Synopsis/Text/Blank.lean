import Synopsis.Text.Ranges

/-!
# Blanks and white space

Inside a line only spaces and tabs set words apart; they are the blanks. Where a line is judged
as a whole, and where a word ends, every character with the property White_Space counts.
-/
namespace Synopsis.Text

/-- A space or a tab. -/
def isBlank (c : Char) : Bool := c = ' ' || c = '\t'

/-- The text after its leading blanks. -/
def skipBlanks (text : List Char) : List Char := text.dropWhile isBlank

/-- The text after its leading blanks, if there is at least one. -/
def blanks? : List Char → Option (List Char)
  | c :: rest => if isBlank c then some (skipBlanks rest) else none
  | [] => none

/-- The code points with the property White_Space. -/
def whiteRanges : List (Nat × Nat) :=
  [(0x9, 0xD), (0x20, 0x20), (0x85, 0x85), (0xA0, 0xA0), (0x1680, 0x1680), (0x2000, 0x200A),
   (0x2028, 0x2029), (0x202F, 0x202F), (0x205F, 0x205F), (0x3000, 0x3000)]

/-- A character with the property White_Space. -/
def isWhite (c : Char) : Bool := inRanges c.toNat whiteRanges

/-- The text after its leading white space. -/
def skipWhite (text : List Char) : List Char := text.dropWhile isWhite

/-- The text without the white space at its two ends. -/
def trimWhite (text : List Char) : List Char :=
  (skipWhite (skipWhite text).reverse).reverse

/-- Every blank is white space. -/
theorem isWhite_of_isBlank {c : Char} (blank : isBlank c = true) : isWhite c = true := by
  simp only [isBlank, Bool.or_eq_true, decide_eq_true_eq] at blank
  rcases blank with rfl | rfl <;> decide

/-- The white space ranges are increasing and do not touch. -/
theorem whiteRanges_separated : separated whiteRanges = true := by decide

/-- Skipping blanks never lengthens a text. -/
theorem skipBlanks_length_le (text : List Char) : (skipBlanks text).length ≤ text.length :=
  (List.dropWhile_suffix isBlank).length_le

end Synopsis.Text

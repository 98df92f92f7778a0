import Synopsis.Atom
import Synopsis.Pattern

/-!
# Spelling of patterns

A pattern is spelled as in a usage line: parts side by side, branches between bars, an optional
body in square brackets, and an ellipsis after a repeated body. Parentheses stand around a choice
unless square brackets already hold it together, and around a repeated sequence of several parts.
-/
namespace Synopsis.Pattern

variable {α : Type}

/-- Whether the root is a choice. -/
def isChoice : Pattern α → Bool
  | .alt _ => true
  | _ => false

/-- Whether an ellipsis after the pattern would not reach all of it without parentheses. -/
def needsGroup : Pattern α → Bool
  | .alt _ => true
  | .seq (_ :: _ :: _) => true
  | _ => false

/-- Parentheses around a text where they are needed. -/
def parenthesize (needed : Bool) (text : List Char) : List Char :=
  if needed then '(' :: text ++ [')'] else text

mutual

/-- The spelling of a pattern, given that of its leaves, without parentheses around a choice at
its root. -/
def spellBare (leaf : α → List Char) : Pattern α → List Char
  | .seq parts => [' '].intercalate (spellAll leaf parts)
  | .alt branches => [' ', '|', ' '].intercalate (spellAll leaf branches)
  | .opt body => '[' :: spellBare leaf body ++ [']']
  | .rep body => parenthesize (needsGroup body) (spellBare leaf body) ++ ['.', '.', '.']
  | .leaf atom => leaf atom

/-- The spellings of several patterns, with parentheses around each choice. -/
def spellAll (leaf : α → List Char) : List (Pattern α) → List (List Char)
  | [] => []
  | first :: later =>
    parenthesize (isChoice first) (spellBare leaf first) :: spellAll leaf later

end

/-- The spelling of a pattern, given that of its leaves. -/
def spellWith (leaf : α → List Char) (pattern : Pattern α) : List Char :=
  parenthesize (isChoice pattern) (spellBare leaf pattern)

/-- The spelling of a pattern over atoms. -/
def spell (pattern : Pattern Atom) : List Char := pattern.spellWith Atom.spell

/-- A pattern over atoms as it is written in a usage line. -/
def spelling (pattern : Pattern Atom) : String := String.ofList pattern.spell

/-- The spellings of several patterns are the spellings of each. -/
theorem spellAll_eq (leaf : α → List Char) (patterns : List (Pattern α)) :
    spellAll leaf patterns = patterns.map (spellWith leaf) := by
  induction patterns with
  | nil => rfl
  | cons first later ih => rw [spellAll, ih, List.map_cons, spellWith]

end Synopsis.Pattern

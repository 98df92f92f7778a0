import Synopsis.Atom
import Synopsis.Text.Quoted

/-!
# Reading atoms from their spelling

A text that is no spelling of an atom is refused with a message that shows the text.
-/
namespace Synopsis

/-- A text that is no spelling of an atom. -/
structure BadSpelling where
  /-- The text as it was given. -/
  text : String
deriving DecidableEq, Repr

/-- The refusal in words. -/
def BadSpelling.message (refused : BadSpelling) : String :=
  "invalid atom spelling: " ++ String.ofList (Text.quote refused.text.toList)

namespace Atom

/-- The atom with the given spelling. -/
def read (text : String) : Except BadSpelling Atom :=
  match ofSpelling? text with
  | some atom => .ok atom
  | none => .error ⟨text⟩

end Atom

end Synopsis

import Synopsis.Position

/-!
# Diagnostics

Reading a text stops at the first violation of its grammar. A diagnostic says where in the text
that is and what was wrong there. While a text is being read, the place is known as the text that
is left; a fault holds that text, and becomes a diagnostic once the whole text is at hand.
-/
namespace Synopsis

/-- What was wrong with a text. -/
inductive Cause where
  /-- The text does not go on as the grammar requires; nothing is found at its end. -/
  | unexpected (expected : String) (found : Option Char)
  /-- No usage header occurs in the text. -/
  | missingHeader
  /-- The tag of a default value is never closed. -/
  | unclosedDefault
  /-- A usage line is cut by a carriage return that no line feed follows, so that neither it nor
  the block ends there. -/
  | strayReturn
deriving DecidableEq, Repr

namespace Cause

/-- A found character in words. -/
def foundText : Option Char → String
  | none => "end of input"
  | some '\n' => "end of line"
  | some '\r' => "end of line"
  | some c => "`" ++ String.singleton c ++ "`"

/-- What was wrong in words. -/
def message : Cause → String
  | .unexpected expected found => "expected " ++ expected ++ ", found " ++ foundText found
  | .missingHeader => "missing `Usage:` header"
  | .unclosedDefault => "unclosed `[default:` tag"
  | .strayReturn => "stray carriage return in a usage line"

end Cause

/-- Where in a text reading stopped, and why. -/
structure Diagnostic where
  /-- The place of the violation. -/
  position : Position
  /-- What was wrong there. -/
  cause : Cause
deriving DecidableEq, Repr

/-- The place and what was wrong in words. -/
def Diagnostic.message (diagnostic : Diagnostic) : String :=
  diagnostic.position.text ++ ": " ++ diagnostic.cause.message

/-- A violation met while a text is being read. -/
structure Fault where
  /-- What was wrong. -/
  cause : Cause
  /-- The text that is left, from the violation on. -/
  rest : List Char
deriving DecidableEq, Repr

namespace Fault

/-- The text does not go on with what is expected. -/
def expected (what : String) (rest : List Char) : Fault := ⟨.unexpected what rest.head?, rest⟩

/-- The same violation when further text follows. -/
def followedBy (fault : Fault) (later : List Char) : Fault :=
  { fault with rest := fault.rest ++ later }

/-- The violation at its place in the whole text. -/
def diagnostic (fault : Fault) (text : List Char) : Diagnostic :=
  ⟨.before text fault.rest, fault.cause⟩

end Fault

end Synopsis

/-!
# JSON values and how they are written

A value is written in one of two layouts: on one line without blanks, or with every member of a
list or record on a line of its own, indented by two spaces for each level. A list or record
without members takes no line of its own in either.
-/
namespace Synopsis.Json

/-- The values of JSON that are written. -/
inductive Value where
  /-- Nothing. -/
  | null
  /-- A truth value. -/
  | truth (value : Bool)
  /-- A string. -/
  | string (content : List Char)
  /-- A list. -/
  | list (members : List Value)
  /-- A record, with its fields in the order in which they are written. -/
  | record (fields : List (List Char × Value))

/-- Where line breaks and blanks stand between tokens. -/
structure Layout where
  /-- What stands before a member at a level, and before the bracket that closes the level. -/
  lineBreak : Nat → List Char
  /-- What stands between a colon and the value after it. -/
  afterColon : List Char

namespace Layout

/-- Everything on one line, without blanks. -/
def compact : Layout := ⟨fun _ => [], []⟩

/-- Each member on a line of its own, indented by two spaces for each level. -/
def indented : Layout := ⟨fun level => '\n' :: List.replicate (2 * level) ' ', [' ']⟩

end Layout

/-- The lower-case hexadecimal digit with a value below sixteen. -/
def hexDigit (value : Nat) : Char := Nat.digitChar value

/-- A character as it stands in a string. -/
def writeChar (c : Char) : List Char :=
  if c = '"' then ['\\', '"']
  else if c = '\\' then ['\\', '\\']
  else if c = '\x08' then ['\\', 'b']
  else if c = '\x0c' then ['\\', 'f']
  else if c = '\n' then ['\\', 'n']
  else if c = '\r' then ['\\', 'r']
  else if c = '\t' then ['\\', 't']
  else if c.toNat < 0x20 then
    ['\\', 'u', '0', '0', hexDigit (c.toNat / 16), hexDigit (c.toNat % 16)]
  else [c]

/-- A string with its quotes. -/
def writeString (content : List Char) : List Char :=
  '"' :: content.flatMap writeChar ++ ['"']

namespace Value

/-- The members of a list or record, already written, between brackets at a level. -/
def bracket (layout : Layout) (level : Nat) (opening closing : Char) :
    List (List Char) → List Char
  | [] => [opening, closing]
  | first :: later =>
    opening :: layout.lineBreak (level + 1) ++ first ++
      later.flatMap (fun member => ',' :: layout.lineBreak (level + 1) ++ member) ++
      layout.lineBreak level ++ [closing]

mutual

/-- The text of a value at a level. -/
def write (layout : Layout) (level : Nat) : Value → List Char
  | .null => ['n', 'u', 'l', 'l']
  | .truth true => ['t', 'r', 'u', 'e']
  | .truth false => ['f', 'a', 'l', 's', 'e']
  | .string content => writeString content
  | .list members => bracket layout level '[' ']' (writeMembers layout (level + 1) members)
  | .record fields =>
    bracket layout level '\x7b' '\x7d' (writeFields layout (level + 1) fields)

/-- The texts of the members of a list. -/
def writeMembers (layout : Layout) (level : Nat) : List Value → List (List Char)
  | [] => []
  | first :: later => write layout level first :: writeMembers layout level later

/-- The texts of the fields of a record. -/
def writeFields (layout : Layout) (level : Nat) : List (List Char × Value) → List (List Char)
  | [] => []
  | (key, value) :: later =>
    (writeString key ++ ':' :: layout.afterColon ++ write layout level value) ::
      writeFields layout level later

end

/-- The text of a value in a layout. -/
def text (layout : Layout) (value : Value) : String := String.ofList (value.write layout 0)

end Value

end Synopsis.Json

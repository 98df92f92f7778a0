/-!
# Tokens of JSON

A JSON text is a list of tokens with blanks between them. The list ends with a bad token where
the text cannot be cut any further. A string is read in two steps: first its pieces, then the
characters they stand for, because the two halves of a surrogate pair are escaped one by one and
a half without its partner stands for nothing.
-/
namespace Synopsis.Json

/-- A token of a JSON text. -/
inductive Token where
  /-- The brace that opens a record. -/
  | openRecord
  /-- The brace that closes a record. -/
  | closeRecord
  /-- The bracket that opens a list. -/
  | openList
  /-- The bracket that closes a list. -/
  | closeList
  /-- The colon after a key. -/
  | colon
  /-- The comma between members. -/
  | comma
  /-- The word for nothing. -/
  | null
  /-- The word for a truth value. -/
  | truth (value : Bool)
  /-- A number, whatever its value. -/
  | number
  /-- A string, with no content if it holds half a surrogate pair. -/
  | string (content : Option (List Char))
  /-- The point from which the text is no JSON. -/
  | bad
deriving DecidableEq, Repr

/-- A piece of a string: a character, or an escaped unit of sixteen bits. -/
inductive Piece where
  /-- One character. -/
  | char (c : Char)
  /-- A unit given by four hexadecimal digits. -/
  | unit (value : Nat)
deriving DecidableEq, Repr

/-- The value of a hexadecimal digit of either case. -/
def hexValue? (c : Char) : Option Nat :=
  if c.isDigit then some (c.toNat - '0'.toNat)
  else if 'a' ≤ c ∧ c ≤ 'f' then some (c.toNat - 'a'.toNat + 10)
  else if 'A' ≤ c ∧ c ≤ 'F' then some (c.toNat - 'A'.toNat + 10)
  else none

/-- The value of four hexadecimal digits. -/
def unit? (a b c d : Char) : Option Nat := do
  let first ← hexValue? a
  let second ← hexValue? b
  let third ← hexValue? c
  let fourth ← hexValue? d
  some (((first * 16 + second) * 16 + third) * 16 + fourth)

/-- The character that a letter stands for after a backslash. -/
def escaped? (letter : Char) : Option Char :=
  if letter = '"' then some '"'
  else if letter = '\\' then some '\\'
  else if letter = '/' then some '/'
  else if letter = 'b' then some '\x08'
  else if letter = 'f' then some '\x0c'
  else if letter = 'n' then some '\n'
  else if letter = 'r' then some '\r'
  else if letter = 't' then some '\t'
  else none

/-- The pieces of a string whose opening quote is already read, and the text after its closing
quote. A control character may not stand in a string by itself. -/
def pieces? : List Char → Option (List Piece × List Char)
  | [] => none
  | '"' :: text => some ([], text)
  | '\\' :: 'u' :: a :: b :: c :: d :: text => do
    let value ← unit? a b c d
    let (later, rest) ← pieces? text
    some (.unit value :: later, rest)
  | '\\' :: letter :: text => do
    let c ← escaped? letter
    let (later, rest) ← pieces? text
    some (.char c :: later, rest)
  | c :: text =>
    if c = '\\' ∨ c.toNat < 0x20 then none
    else do
      let (later, rest) ← pieces? text
      some (.char c :: later, rest)

/-- Whether a unit is the first half of a surrogate pair. -/
def isHighHalf (value : Nat) : Bool := 0xD800 ≤ value && value < 0xDC00

/-- Whether a unit is the second half of a surrogate pair. -/
def isLowHalf (value : Nat) : Bool := 0xDC00 ≤ value && value < 0xE000

/-- The character of a surrogate pair. -/
def pairChar (high low : Nat) : Char :=
  Char.ofNat (0x10000 + (high - 0xD800) * 0x400 + (low - 0xDC00))

/-- The characters that pieces stand for, unless half a surrogate pair is among them. -/
def content? : List Piece → Option (List Char)
  | [] => some []
  | .char c :: later => (content? later).map (c :: ·)
  | .unit high :: .unit low :: later =>
    if isHighHalf high then
      if isLowHalf low then (content? later).map (pairChar high low :: ·) else none
    else if isLowHalf high then none
    else (content? (.unit low :: later)).map (Char.ofNat high :: ·)
  | .unit value :: later =>
    if isHighHalf value || isLowHalf value then none
    else (content? later).map (Char.ofNat value :: ·)

/-- The text after one or more digits. -/
def digits? : List Char → Option (List Char)
  | c :: text => if c.isDigit then some (text.dropWhile Char.isDigit) else none
  | [] => none

/-- The text after the integer part of a number, which has no superfluous leading zero. -/
def integer? : List Char → Option (List Char)
  | '0' :: text => some text
  | text => digits? text

/-- The text after the fraction of a number, which may be missing. -/
def fraction? : List Char → Option (List Char)
  | '.' :: text => digits? text
  | text => some text

/-- The text after the sign of an exponent, which may be missing. -/
def skipSign : List Char → List Char
  | '+' :: text => text
  | '-' :: text => text
  | text => text

/-- The text after the exponent of a number, which may be missing. -/
def exponent? : List Char → Option (List Char)
  | 'e' :: text => digits? (skipSign text)
  | 'E' :: text => digits? (skipSign text)
  | text => some text

/-- The text after a number. -/
def number? (text : List Char) : Option (List Char) :=
  let unsigned :=
    match text with
    | '-' :: rest => rest
    | _ => text
  match integer? unsigned with
  | none => none
  | some rest =>
    match fraction? rest with
    | none => none
    | some rest => exponent? rest

/-- The blanks between tokens. -/
def isGap (c : Char) : Bool := c = ' ' || c = '\n' || c = '\t' || c = '\r'

namespace Token

/-- The token at the front of a text that does not begin with a blank, and the text after it. -/
def front? : List Char → Option (Token × List Char)
  | [] => none
  | '\x7b' :: text => some (.openRecord, text)
  | '\x7d' :: text => some (.closeRecord, text)
  | '[' :: text => some (.openList, text)
  | ']' :: text => some (.closeList, text)
  | ':' :: text => some (.colon, text)
  | ',' :: text => some (.comma, text)
  | 'n' :: 'u' :: 'l' :: 'l' :: text => some (.null, text)
  | 't' :: 'r' :: 'u' :: 'e' :: text => some (.truth true, text)
  | 'f' :: 'a' :: 'l' :: 's' :: 'e' :: text => some (.truth false, text)
  | '"' :: text =>
    match pieces? text with
    | some (pieces, rest) => some (.string (content? pieces), rest)
    | none => none
  | text =>
    match number? text with
    | some rest => some (.number, rest)
    | none => none

/-- The tokens of a text. The number bounds how many there are. -/
def cut : Nat → List Char → List Token
  | 0, _ => []
  | bound + 1, text =>
    match text.dropWhile isGap with
    | [] => []
    | c :: rest =>
      match front? (c :: rest) with
      | some (token, later) => token :: cut bound later
      | none => [.bad]

/-- The tokens of a text. -/
def ofText (text : List Char) : List Token := cut text.length text

end Token

end Synopsis.Json

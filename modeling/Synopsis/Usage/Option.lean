import Synopsis.Atom
import Synopsis.Text.Name

/-!
# Options as they are written

An option is written with one letter or with a name. An equals sign or a single space may join a
placeholder for its value to it: a name in angle brackets, or a word of capitals. The placeholder
is no part of any pattern; that there is one is all that is kept of it.
-/
namespace Synopsis.Usage

open Text (name? continuesName)

/-- One occurrence of an option. -/
structure Mention where
  /-- The option in the spelling used. -/
  option : Atom
  /-- Whether a placeholder for a value is joined to it. -/
  valued : Bool
deriving DecidableEq, Repr

/-- A name in angle brackets. -/
def bracketed? : List Char → Option (List Char × List Char)
  | '<' :: text =>
    match name? text with
    | some (name, '>' :: rest) => some (name, rest)
    | _ => none
  | _ => none

/-- A character of a word of capitals. -/
def isCapitalChar (c : Char) : Bool := c.isUpper || c.isDigit || c = '_' || c = '-'

/-- The text after a word of capitals, which begins with a letter and does not run into a longer
name. -/
def capitals? : List Char → Option (List Char)
  | c :: text =>
    let rest := text.dropWhile isCapitalChar
    if c.isUpper && !continuesName rest then some rest else none
  | [] => none

/-- The text after a placeholder. -/
def placeholder? (text : List Char) : Option (List Char) :=
  match bracketed? text with
  | some (_, rest) => some rest
  | none => capitals? text

/-- The text after a placeholder that is joined to what comes before. -/
def value? : List Char → Option (List Char)
  | '=' :: text => placeholder? text
  | ' ' :: text => placeholder? text
  | _ => none

/-- The mention of an option that has just been read, and the text after it. -/
def mention (option : Atom) (text : List Char) : Mention × List Char :=
  match value? text with
  | some rest => (⟨option, true⟩, rest)
  | none => (⟨option, false⟩, text)

/-- An option written with its name. -/
def longOption? : List Char → Option (Mention × List Char)
  | '-' :: '-' :: text =>
    match name? text with
    | some (name, rest) => some (mention (.long (String.ofList name)) rest)
    | none => none
  | _ => none

/-- An option written with its letter. -/
def shortOption? : List Char → Option (Mention × List Char)
  | '-' :: letter :: text =>
    if letter.isAlpha then some (mention (.short letter) text) else none
  | _ => none

/-- A hyphen and one or more letters. A single letter is an option that may have a placeholder;
several are as many options, none of which has one. -/
def stack? : List Char → Option (List Mention × List Char)
  | '-' :: text =>
    let rest := text.dropWhile Char.isAlpha
    match text.takeWhile Char.isAlpha with
    | [] => none
    | [letter] =>
      let (single, rest) := mention (.short letter) rest
      some ([single], rest)
    | letters => some (letters.map fun letter => ⟨.short letter, false⟩, rest)
  | _ => none

end Synopsis.Usage

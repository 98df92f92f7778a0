import Synopsis.Diagnostic
import Synopsis.Text.Blank
import Synopsis.Text.Leading
import Synopsis.Usage.Fragment

/-!
# Expressions of a usage line

An expression is an option, a command, an argument, the placeholder for options, or alternatives
in brackets, and an ellipsis after it lets it be repeated. Expressions set apart by blanks form a
sequence; sequences set apart by bars form alternatives.

Reading an expression accepts the front of a text, declines the text, or fails. Only an opened
bracket that is not closed makes it fail. Sequences and alternatives are read with a given reader
for single expressions; the reader for one level of brackets uses that for one level less.
-/
namespace Synopsis.Usage

open Text (skipBlanks blanks? after? name? continuesName)

/-- The result of reading one expression at the front of a text. -/
inductive Outcome where
  /-- An expression was read, and this text is left. -/
  | accepted (fragment : Fragment) (rest : List Char)
  /-- No expression begins here. -/
  | declined
  /-- An expression begins here, but does not go on as it must. -/
  | failed (fault : Fault)

/-- A way to read one expression. -/
abbrev Reader := List Char → Outcome

/-- The expressions after the first one of a sequence, each after at least one blank. The number
bounds how many are read. -/
def moreExpressions (read : Reader) :
    Nat → List Char → Except Fault (List Fragment × List Char)
  | 0, text => .ok ([], text)
  | bound + 1, text =>
    match blanks? text with
    | none => .ok ([], text)
    | some next =>
      match read next with
      | .declined => .ok ([], text)
      | .failed fault => .error fault
      | .accepted fragment rest =>
        match moreExpressions read bound rest with
        | .error fault => .error fault
        | .ok (fragments, last) => .ok (fragment :: fragments, last)

/-- A sequence of expressions, which may be empty. The blanks after the last one are left. -/
def sequence (read : Reader) (text : List Char) : Except Fault (Fragment × List Char) :=
  match read (skipBlanks text) with
  | .declined => .ok (.sequence [], text)
  | .failed fault => .error fault
  | .accepted fragment rest =>
    match moreExpressions read rest.length rest with
    | .error fault => .error fault
    | .ok (fragments, last) => .ok (.sequence (fragment :: fragments), last)

/-- The branches after the first one, each after a bar. The number bounds how many are read. -/
def moreBranches (read : Reader) :
    Nat → List Char → Except Fault (List Fragment × List Char)
  | 0, text => .ok ([], text)
  | bound + 1, text =>
    match skipBlanks text with
    | '|' :: next =>
      match sequence read next with
      | .error fault => .error fault
      | .ok (branch, rest) =>
        match moreBranches read bound rest with
        | .error fault => .error fault
        | .ok (branches, last) => .ok (branch :: branches, last)
    | _ => .ok ([], text)

/-- Sequences set apart by bars. The blanks after the last one are left. -/
def alternatives (read : Reader) (text : List Char) : Except Fault (Fragment × List Char) :=
  match sequence read text with
  | .error fault => .error fault
  | .ok (branch, rest) =>
    match moreBranches read rest.length rest with
    | .error fault => .error fault
    | .ok (branches, last) => .ok (.choice (branch :: branches), last)

/-- The brackets that hold alternatives together. -/
inductive Bracket where
  /-- Square brackets, around what is optional. -/
  | square
  /-- Parentheses, which only group. -/
  | round
deriving DecidableEq, Repr

namespace Bracket

/-- The character that closes the bracket. -/
def closing : Bracket → Char
  | .square => ']'
  | .round => ')'

/-- What may stand after the alternatives in the bracket. -/
def expected (bracket : Bracket) : String :=
  "expression, `|` or `" ++ String.singleton bracket.closing ++ "`"

/-- What the bracket makes of its contents. -/
def apply : Bracket → Fragment → Fragment
  | .square, body => body.optional
  | .round, body => body

end Bracket

/-- Alternatives up to the closing bracket; the opening one is already read. -/
def enclosed (read : Reader) (bracket : Bracket) (text : List Char) : Outcome :=
  match alternatives read text with
  | .error fault => .failed fault
  | .ok (body, rest) =>
    match skipBlanks rest with
    | c :: last =>
      if c = bracket.closing then .accepted (bracket.apply body) last
      else .failed (.expected bracket.expected (c :: last))
    | [] => .failed (.expected bracket.expected [])

/-- The word that stands for all described options. -/
def optionsWord : List Char := ['o', 'p', 't', 'i', 'o', 'n', 's']

/-- The word that stands for all described options, where no longer name begins. -/
def optionsWord? (text : List Char) : Option (List Char) :=
  match after? optionsWord text with
  | some rest => if continuesName rest then none else some rest
  | none => none

/-- An expression without brackets around alternatives. -/
def simple? (text : List Char) : Option (Fragment × List Char) :=
  match stack? text with
  | some (mentions, rest) => some (.ofMentions mentions, rest)
  | none =>
    match longOption? text with
    | some (mention, rest) => some (.ofMentions [mention], rest)
    | none =>
      match optionsWord? text with
      | some rest => some (.repeated (.ofAtom .options), rest)
      | none =>
        match bracketed? text with
        | some (name, rest) => some (.ofAtom (.argument (String.ofList name)), rest)
        | none =>
          match name? text with
          | some (name, rest) => some (.ofAtom (.command (String.ofList name)), rest)
          | none => none

/-- An expression without an ellipsis. -/
def unit (read : Reader) (text : List Char) : Outcome :=
  match text with
  | '[' :: inside => enclosed read .square inside
  | '(' :: inside => enclosed read .round inside
  | _ =>
    match simple? text with
    | some (fragment, rest) => .accepted fragment rest
    | none => .declined

/-- An expression that has been read, repeated if an ellipsis follows. -/
def withEllipsis (fragment : Fragment) (rest : List Char) : Outcome :=
  match skipBlanks rest with
  | '.' :: '.' :: '.' :: last => .accepted fragment.repeated last
  | _ => .accepted fragment rest

/-- One expression, with a given reader for those in its brackets. -/
def expressionWith (read : Reader) (text : List Char) : Outcome :=
  match unit read text with
  | .accepted fragment rest => withEllipsis fragment rest
  | .declined => .declined
  | .failed fault => .failed fault

/-- One expression with fewer levels of brackets than the number. -/
def expressionTo : Nat → Reader
  | 0 => fun _ => .declined
  | depth + 1 => fun text => expressionWith (expressionTo depth) text

/-- One expression at the front of a text. A text has no more levels of brackets than
characters. -/
def expression (text : List Char) : Outcome := expressionTo (text.length + 1) text

/-- Alternatives at the front of a text. -/
def lineAlternatives (text : List Char) : Except Fault (Fragment × List Char) :=
  alternatives (expressionTo (text.length + 1)) text

end Synopsis.Usage

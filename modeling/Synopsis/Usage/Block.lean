import Synopsis.Text.Lines
import Synopsis.Text.Word
import Synopsis.Usage.Expression

/-!
# The usage block

The block begins with the header, the first word of the text that is `Usage:` or `usage:`. The
header's own line may hold the first usage line; otherwise the lines after it are usage lines up
to a blank line, a line that begins with a hyphen, or one whose first word ends in a colon. A
usage line gives the name of the program, which counts for nothing, and then alternatives.
-/
namespace Synopsis.Usage

open Text (skipBlanks isWhite skipWhite isWordChar after? lines)

/-- The header without its first letter. -/
def headerTail : List Char := ['s', 'a', 'g', 'e', ':']

/-- The text after a header at its front. -/
def header? : List Char → Option (List Char)
  | 'U' :: text => after? headerTail text
  | 'u' :: text => after? headerTail text
  | _ => none

/-- The text after the first header that begins a word. The flag says whether the character
before belongs to a word. -/
def findHeader (inWord : Bool) : List Char → Option (List Char)
  | [] => none
  | c :: text =>
    if inWord then findHeader (isWordChar c) text
    else
      match header? (c :: text) with
      | some rest => some rest
      | none => findHeader (isWordChar c) text

/-- The text after the header. -/
def afterHeader? (text : List Char) : Option (List Char) := findHeader false text

/-- Whether the text is at the end of a line. -/
def atLineEnd : List Char → Bool
  | [] => true
  | c :: _ => c = '\n' || c = '\r'

/-- Whether a line ends the usage block: one with nothing but white space in it, one that begins
with a hyphen, and one whose first word ends in a colon, such as the heading of a section. -/
def endsBlock (line : List Char) : Bool :=
  match skipWhite line with
  | [] => true
  | '-' :: _ => true
  | body => (body.takeWhile fun c => !isWhite c).getLast? = some ':'

/-- A line after its first word, the name of the program. -/
def skipProgram (line : List Char) : List Char :=
  (skipBlanks line).dropWhile fun c => !isWhite c

/-- A usage line, up to the end of its line, which is left. -/
def usageLine (line : List Char) : Except Fault (Fragment × List Char) :=
  match lineAlternatives (skipProgram line) with
  | .error fault => .error fault
  | .ok (fragment, rest) =>
    let rest := skipBlanks rest
    if atLineEnd rest then .ok (fragment, rest)
    else .error (.expected "expression, `|` or end of line" rest)

/-- A text after the line break at its front, if there is one. -/
def skipBreak : List Char → List Char
  | '\r' :: '\n' :: text => text
  | '\n' :: text => text
  | text => text

/-- A usage line and the line break after it, and what is left of the line: nothing, unless a
carriage return stands in it. The later lines only matter for the place of a fault. -/
def turn (line : List Char) (later : List (List Char)) : Except Fault (Fragment × List Char) :=
  match usageLine line with
  | .error fault => .error (fault.followedBy later.flatten)
  | .ok (usage, rest) => .ok (usage, skipBreak rest)

/-- What has been read of a usage block. -/
structure Block where
  /-- The usage lines. -/
  usages : List Fragment
  /-- The lines after the block; the first of them may be the end of a line. -/
  remaining : List (List Char)

namespace Block

/-- The block with one more usage line before the others. -/
def push (usage : Fragment) (block : Block) : Block :=
  { block with usages := usage :: block.usages }

/-- The usage lines up to the end of the block. The flag says that the first line counts as a
usage line even if it looks like an end of the block. Where a carriage return leaves part of a
line unread, nothing more of it can be read, so the block must end there. -/
def ofLines (anyway : Bool) : List (List Char) → Except Fault Block
  | [] => .ok ⟨[], []⟩
  | line :: later =>
    if !anyway && endsBlock line then .ok ⟨[], line :: later⟩
    else
      match turn line later with
      | .error fault => .error fault
      | .ok (usage, []) =>
        match ofLines false later with
        | .error fault => .error fault
        | .ok block => .ok (block.push usage)
      | .ok (usage, rest) =>
        if endsBlock rest then .ok ⟨[usage], rest :: later⟩
        else .error ⟨.strayReturn, rest ++ later.flatten⟩

/-- The usage lines after the header, of which the first may stand on the header's own line. -/
def afterHeader (text : List Char) : Except Fault Block :=
  if atLineEnd (skipBlanks text) then ofLines false (lines text).tail
  else ofLines true (lines text)

/-- The usage block of a text. It has at least one usage line. -/
def ofText (text : List Char) : Except Fault Block :=
  match afterHeader? text with
  | none => .error ⟨.missingHeader, []⟩
  | some rest =>
    match afterHeader rest with
    | .error fault => .error fault
    | .ok block =>
      if block.usages.isEmpty then .error (.expected "usage line" block.remaining.flatten)
      else .ok block

/-- All usage lines as alternatives. -/
def fragment (block : Block) : Fragment := .choice block.usages

end Block

end Synopsis.Usage

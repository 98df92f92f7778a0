import Synopsis.Catalog
import Synopsis.Diagnostic
import Synopsis.Text.Blank
import Synopsis.Text.Leading
import Synopsis.Text.Lines
import Synopsis.Usage.Option

/-!
# Descriptions of options

After the usage block, each line that begins with a hyphen opens a record, which goes on up to
the next such line. A record begins with the spellings of one option and may hold a tag with the
option's default value. What stands before the first record is not looked at.
-/
namespace Synopsis.Description

open Text (skipBlanks blanks? isBlank skipWhite trimWhite afterFolded?)
open Usage (Mention longOption? shortOption?)

/-- Whether the first character of the line that is no white space is a hyphen. -/
def isDashLine (line : List Char) : Bool := (skipWhite line).head? = some '-'

/-- The lines before the first record, joined, and the text of each record. -/
def split : List (List Char) → List Char × List (List Char)
  | [] => ([], [])
  | line :: later =>
    let (leading, records) := split later
    if isDashLine line then ([], (line ++ leading) :: records)
    else (line ++ leading, records)

/-- The leading lines and the records together are all the lines. -/
theorem split_flatten (lines : List (List Char)) :
    (split lines).1 ++ (split lines).2.flatten = lines.flatten := by
  induction lines with
  | nil => rfl
  | cons line later ih =>
    rw [split, List.flatten_cons, ← ih]
    by_cases opens : isDashLine line = true
    · simp only [opens, if_true, List.nil_append, List.flatten_cons, List.append_assoc]
    · simp only [opens, if_false, List.append_assoc, Bool.false_eq_true]

/-- One spelling of an option, with its placeholder. -/
def spelling? (text : List Char) : Option (Mention × List Char) :=
  match longOption? text with
  | some found => some found
  | none => shortOption? text

/-- The text after what sets two spellings apart: a comma and any blanks, or blanks alone. -/
def separator? : List Char → Option (List Char)
  | ',' :: text => some (skipBlanks text)
  | text => blanks? text

/-- The spellings after the first one. What sets them apart is left where no spelling follows.
The number bounds how many are read. -/
def moreSpellings : Nat → List Char → List Mention × List Char
  | 0, text => ([], text)
  | bound + 1, text =>
    match separator? text with
    | none => ([], text)
    | some next =>
      match spelling? next with
      | none => ([], text)
      | some (mention, rest) =>
        let (mentions, last) := moreSpellings bound rest
        (mention :: mentions, last)

/-- The spellings at the beginning of a record, of which there is at least one. -/
def spellings (text : List Char) : Except Fault (List Mention × List Char) :=
  let text := skipBlanks text
  match spelling? text with
  | none => .error (.expected "short or long option" text)
  | some (mention, rest) =>
    let (mentions, last) := moreSpellings rest.length rest
    .ok (mention :: mentions, last)

/-- What opens the tag of a default value, in any case. -/
def tagOpening : List Char := ['[', 'd', 'e', 'f', 'a', 'u', 'l', 't', ':']

/-- The text from the first tag on, and the text after the opening of that tag. -/
def findTag : List Char → Option (List Char × List Char)
  | [] => none
  | c :: text =>
    match afterFolded? tagOpening (c :: text) with
    | some value => some (c :: text, value)
    | none => findTag text

/-- The default value in a text, if it holds a tag. A tag that is not closed is a fault. -/
def fallback (text : List Char) : Except Fault (Option String) :=
  match findTag text with
  | none => .ok none
  | some (tag, value) =>
    if ']' ∈ value then
      .ok (some (String.ofList (trimWhite (value.takeWhile fun c => c ≠ ']'))))
    else .error ⟨.unclosedDefault, tag⟩

/-- The entry of an option with the given spellings and default value. -/
def entry (mentions : List Mention) (fallback : Option String) : Entry :=
  { synonyms := .ofList (mentions.map Mention.option)
    fallback
    takesValue := mentions.any Mention.valued
    repeatable := false }

/-- The entry that a record describes. The spellings are read from the text as it goes on with the
later records, and the default value from what is then left of the record. -/
def ofRecord (record later : List Char) : Except Fault Entry :=
  match spellings (record ++ later) with
  | .error fault => .error fault
  | .ok (mentions, rest) =>
    match fallback (rest.take (rest.length - later.length)) with
    | .error fault => .error (fault.followedBy later)
    | .ok found => .ok (entry mentions found)

/-- The entries that the records describe, in order. -/
def ofRecords : List (List Char) → Except Fault (List Entry)
  | [] => .ok []
  | record :: later =>
    match ofRecord record later.flatten with
    | .error fault => .error fault
    | .ok first =>
      match ofRecords later with
      | .error fault => .error fault
      | .ok entries => .ok (first :: entries)

/-- The entries that the lines after the usage block describe, in order. -/
def ofLines (lines : List (List Char)) : Except Fault (List Entry) := ofRecords (split lines).2

end Synopsis.Description

namespace Synopsis.Catalog

/-- The catalog with an option that is mentioned in a usage line: it takes a value if any mention
of it has one. -/
def mention (catalog : Catalog) (found : Usage.Mention) : Catalog :=
  let known := (catalog.find? found.option).getD .blank
  catalog.insert found.option { known with takesValue := known.takesValue || found.valued }

/-- The catalog of the options mentioned in usage lines. -/
def ofMentions (mentions : List Usage.Mention) : Catalog := mentions.foldl mention .empty

/-- The catalog with an entry under each of its synonyms, instead of what was there. -/
def describe (catalog : Catalog) (entry : Entry) : Catalog :=
  entry.synonyms.toList.foldl (fun found synonym => found.insert synonym entry) catalog

/-- The catalog with several entries; a later one replaces an earlier one. -/
def describeAll (catalog : Catalog) (entries : List Entry) : Catalog :=
  entries.foldl describe catalog

end Synopsis.Catalog

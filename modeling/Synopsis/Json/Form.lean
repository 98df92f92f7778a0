import Synopsis.Atom.Spelling
import Synopsis.Json.Token

/-!
# Forms of stored values

A form reads one value of a type from the front of a list of tokens. Of several things wrong
with a text, the one that comes first is reported, so a form looks at no token beyond the first
that it cannot use. A record may give its fields in any order and may have further fields, whose
values are skipped.
-/
namespace Synopsis.Json

/-- Why tokens are not the form of a value. -/
inductive Flaw where
  /-- They are no JSON, or JSON of another shape. -/
  | malformed
  /-- A string that should spell an atom does not. -/
  | badSpelling (refused : BadSpelling)
deriving DecidableEq, Repr

/-- A way to read one value from the front of a list of tokens. -/
abbrev Form (α : Type) := List Token → Except Flaw (α × List Token)

namespace Form

variable {α σ : Type}

/-- The tokens after a given one. -/
def skipToken (expected : Token) : List Token → Except Flaw (List Token)
  | token :: rest => if token = expected then .ok rest else .error .malformed
  | [] => .error .malformed

/-- A string. -/
def string : Form String
  | .string (some content) :: rest => .ok (String.ofList content, rest)
  | _ => .error .malformed

/-- A truth value. -/
def truth : Form Bool
  | .truth value :: rest => .ok (value, rest)
  | _ => .error .malformed

/-- A string, or nothing. -/
def string? : Form (Option String)
  | .null :: rest => .ok (none, rest)
  | tokens => do
    let (content, rest) ← string tokens
    .ok (some content, rest)

/-- An atom in its spelling. -/
def atom : Form Atom := fun tokens => do
  let (content, rest) ← string tokens
  match Atom.read content with
  | .ok found => .ok (found, rest)
  | .error refused => .error (.badSpelling refused)

/-- The members of a list, from a member on. The number bounds how many there are. -/
def members (member : Form α) : Nat → Form (List α)
  | 0, _ => .error .malformed
  | bound + 1, tokens => do
    let (first, rest) ← member tokens
    match rest with
    | .comma :: next => do
      let (later, last) ← members member bound next
      .ok (first :: later, last)
    | .closeList :: last => .ok ([first], last)
    | _ => .error .malformed

/-- A list. -/
def list (member : Form α) : Form (List α)
  | .openList :: .closeList :: rest => .ok ([], rest)
  | .openList :: rest => members member rest.length rest
  | _ => .error .malformed

/-- The fields of a record, from a key on. What is known of the record so far and the key give
the form of the value, which is what is known then. The number bounds how many fields there are. -/
def fields (field : σ → String → Except Flaw (Form σ)) : Nat → σ → Form σ
  | 0, _, _ => .error .malformed
  | bound + 1, known, tokens => do
    let (key, rest) ← string tokens
    let value ← field known key
    let rest ← skipToken .colon rest
    let (known, rest) ← value rest
    match rest with
    | .comma :: next => fields field bound known next
    | .closeRecord :: last => .ok (known, last)
    | _ => .error .malformed

/-- A record, whose opening brace is already read. -/
def record (field : σ → String → Except Flaw (Form σ)) (unknown : σ) : Form σ
  | .closeRecord :: rest => .ok (unknown, rest)
  | tokens => fields field tokens.length unknown tokens

/-- Read a field for the first time; a second time is a flaw. -/
def once (known : Option α) (value : Form α) (set : Option α → σ) : Except Flaw (Form σ) :=
  if known.isSome then .error .malformed
  else .ok fun tokens => do
    let (found, rest) ← value tokens
    .ok (set (some found), rest)

/-- A field that must have been there. -/
def required (known : Option α) : Except Flaw α :=
  match known with
  | some found => .ok found
  | none => .error .malformed

/-- The whole of a list of tokens. -/
def all (form : Form α) (tokens : List Token) : Except Flaw α := do
  let (found, rest) ← form tokens
  if rest.isEmpty then .ok found else .error .malformed

end Form

/-- What holds the value that is being skipped. -/
inductive Holder where
  /-- A list. -/
  | list
  /-- A record. -/
  | record
deriving DecidableEq, Repr

/-- What may come next while a value is being skipped. -/
inductive Awaited where
  /-- A value. -/
  | value
  /-- The first member of a list, or its end. -/
  | member
  /-- A key. -/
  | key
  /-- The first key of a record, or its end. -/
  | field
  /-- The colon after a key. -/
  | colon
  /-- A comma, or the end of the list or record. -/
  | next
deriving DecidableEq, Repr

/-- How far the skipping of a value has come. -/
inductive Progress where
  /-- The value has ended. -/
  | done
  /-- This comes next, in these lists and records, the innermost first. -/
  | going (awaited : Awaited) (holders : List Holder)
deriving DecidableEq, Repr

/-- How it goes on after a value inside these lists and records. -/
def Progress.afterValue : List Holder → Progress
  | [] => .done
  | holders => .going .next holders

/-- How it goes on with the first token of a value. -/
def Progress.begin (holders : List Holder) : Token → Option Progress
  | .null => some (afterValue holders)
  | .truth _ => some (afterValue holders)
  | .number => some (afterValue holders)
  | .string _ => some (afterValue holders)
  | .openList => some (.going .member (.list :: holders))
  | .openRecord => some (.going .field (.record :: holders))
  | _ => none

/-- How it goes on after a comma in a list or record. -/
def Holder.another : Holder → Awaited
  | .list => .value
  | .record => .key

/-- The token that closes a list or record. -/
def Holder.closing : Holder → Token
  | .list => .closeList
  | .record => .closeRecord

/-- How it goes on with one more token. -/
def Progress.step : Awaited → List Holder → Token → Option Progress
  | .value, holders, token => begin holders token
  | .member, holders, token =>
    if token = .closeList then some (afterValue holders.tail) else begin holders token
  | .key, holders, .string _ => some (.going .colon holders)
  | .field, holders, .string _ => some (.going .colon holders)
  | .field, holders, .closeRecord => some (afterValue holders.tail)
  | .colon, holders, .colon => some (.going .value holders)
  | .next, holder :: holders, token =>
    if token = .comma then some (.going holder.another (holder :: holders))
    else if token = holder.closing then some (afterValue holders)
    else none
  | _, _, _ => none

/-- The tokens after a value that is being skipped. -/
def skipFrom (awaited : Awaited) (holders : List Holder) : List Token → Except Flaw (List Token)
  | [] => .error .malformed
  | token :: rest =>
    match Progress.step awaited holders token with
    | none => .error .malformed
    | some .done => .ok rest
    | some (.going awaited holders) => skipFrom awaited holders rest

/-- The tokens after a value, of which only the shape is looked at. -/
def skip (tokens : List Token) : Except Flaw (List Token) := skipFrom .value [] tokens

/-- A field that says nothing of interest. -/
def Form.ignored {σ : Type} (known : σ) : Form σ := fun tokens => do
  let rest ← skip tokens
  .ok (known, rest)

end Synopsis.Json

import Synopsis.Json.Form
import Synopsis.Stored.Value

/-!
# Forms of stored values

What is stored is read back whatever the order of its fields, and fields of other names are
skipped. In place of a record, an interface, an entry or a manual may be a list of its fields in
order. No more than a fixed number of brackets and braces may be open at once around what is
read; each form is given the number that is left to it.
-/
namespace Synopsis

open Json

namespace Stored

/-- The most brackets and braces that may be open at once in a stored text. -/
def nestingLimit : Nat := 127

/-- A form in which no bracket or brace may be opened. -/
def exhausted {α : Type} : Form α := fun _ => .error .malformed

/-- The value of the only field of a record, whose key is already read. -/
def lastField {α β : Type} (make : α → β) (value : Form α) : Form β := fun tokens => do
  let (found, rest) ← value tokens
  let rest ← Form.skipToken .closeRecord rest
  .ok (make found, rest)

mutual

/-- The form of a pattern with so many brackets and braces at most. -/
def pattern : Nat → Form (Pattern Atom)
  | 0 => exhausted
  | room + 1 => fun tokens =>
    match tokens with
    | .openRecord :: .string (some key) :: .colon :: rest =>
      if key = sequenceKey.toList then lastField .seq (patterns room) rest
      else if key = choiceKey.toList then lastField .alt (patterns room) rest
      else if key = optionalKey.toList then lastField .opt (pattern room) rest
      else if key = repeatedKey.toList then lastField .rep (pattern room) rest
      else if key = leafKey.toList then lastField .leaf Form.atom rest
      else .error .malformed
    | _ => .error .malformed

/-- The form of a list of patterns with so many brackets and braces at most. -/
def patterns : Nat → Form (List (Pattern Atom))
  | 0 => exhausted
  | room + 1 => Form.list (pattern room)

end

/-- The form of a list of synonyms with so many brackets and braces at most. -/
def synonyms : Nat → Form AtomSet
  | 0 => exhausted
  | _ + 1 => fun tokens => do
    let (atoms, rest) ← Form.list Form.atom tokens
    .ok (.ofList atoms, rest)

/-- What has been read of an entry. -/
structure EntryDraft where
  /-- The synonyms, once read. -/
  synonyms : Option AtomSet
  /-- The default value or its absence, once read. -/
  fallback : Option (Option String)
  /-- Whether a value follows, once read. -/
  takesValue : Option Bool
  /-- Whether the atom may occur more than once, once read. -/
  repeatable : Option Bool

namespace EntryDraft

/-- One more field of an entry. -/
def field (room : Nat) (draft : EntryDraft) (key : String) : Except Flaw (Form EntryDraft) :=
  if key = synonymsKey then
    Form.once draft.synonyms (Stored.synonyms room) fun found => { draft with synonyms := found }
  else if key = fallbackKey then
    Form.once draft.fallback Form.string? fun found => { draft with fallback := found }
  else if key = takesValueKey then
    Form.once draft.takesValue Form.truth fun found => { draft with takesValue := found }
  else if key = repeatableKey then
    Form.once draft.repeatable Form.truth fun found => { draft with repeatable := found }
  else .ok (Form.ignored draft)

/-- The finished entry. Only the default value may be missing. -/
def finish (draft : EntryDraft) : Except Flaw Entry := do
  let synonyms ← Form.required draft.synonyms
  let takesValue ← Form.required draft.takesValue
  let repeatable ← Form.required draft.repeatable
  .ok ⟨synonyms, draft.fallback.getD none, takesValue, repeatable⟩

end EntryDraft

/-- The form of an entry with so many brackets and braces at most. -/
def entry : Nat → Form Entry
  | 0 => exhausted
  | room + 1 => fun tokens =>
    match tokens with
    | .openRecord :: rest => do
      let (draft, rest) ← Form.record (EntryDraft.field room) ⟨none, none, none, none⟩ rest
      let found ← draft.finish
      .ok (found, rest)
    | .openList :: rest => do
      let (synonyms, rest) ← synonyms room rest
      let rest ← Form.skipToken .comma rest
      let (fallback, rest) ← Form.string? rest
      let rest ← Form.skipToken .comma rest
      let (takesValue, rest) ← Form.truth rest
      let rest ← Form.skipToken .comma rest
      let (repeatable, rest) ← Form.truth rest
      let rest ← Form.skipToken .closeList rest
      .ok (⟨synonyms, fallback, takesValue, repeatable⟩, rest)
    | _ => .error .malformed

/-- One more entry of a catalog; a later one for the same atom replaces an earlier one. -/
def catalogField (room : Nat) (known : Catalog) (key : String) : Except Flaw (Form Catalog) :=
  match Atom.read key with
  | .error refused => .error (.badSpelling refused)
  | .ok atom => .ok fun tokens => do
    let (found, rest) ← entry room tokens
    .ok (known.insert atom found, rest)

/-- The form of a catalog with so many brackets and braces at most. -/
def catalog : Nat → Form Catalog
  | 0 => exhausted
  | room + 1 => fun tokens =>
    match tokens with
    | .openRecord :: rest => Form.record (catalogField room) .empty rest
    | _ => .error .malformed

/-- What has been read of an interface. -/
structure InterfaceDraft where
  /-- The pattern, once read. -/
  pattern : Option (Pattern Atom)
  /-- The catalog, once read. -/
  catalog : Option Catalog

namespace InterfaceDraft

/-- One more field of an interface. -/
def field (room : Nat) (draft : InterfaceDraft) (key : String) :
    Except Flaw (Form InterfaceDraft) :=
  if key = patternKey then
    Form.once draft.pattern (Stored.pattern room) fun found => { draft with pattern := found }
  else if key = catalogKey then
    Form.once draft.catalog (Stored.catalog room) fun found => { draft with catalog := found }
  else .ok (Form.ignored draft)

/-- The finished interface. -/
def finish (draft : InterfaceDraft) : Except Flaw Interface := do
  let pattern ← Form.required draft.pattern
  let catalog ← Form.required draft.catalog
  .ok ⟨pattern, catalog⟩

end InterfaceDraft

/-- The form of an interface with so many brackets and braces at most. -/
def interface : Nat → Form Interface
  | 0 => exhausted
  | room + 1 => fun tokens =>
    match tokens with
    | .openRecord :: rest => do
      let (draft, rest) ← Form.record (InterfaceDraft.field room) ⟨none, none⟩ rest
      let found ← draft.finish
      .ok (found, rest)
    | .openList :: rest => do
      let (pattern, rest) ← pattern room rest
      let rest ← Form.skipToken .comma rest
      let (catalog, rest) ← catalog room rest
      let rest ← Form.skipToken .closeList rest
      .ok (⟨pattern, catalog⟩, rest)
    | _ => .error .malformed

/-- What has been read of a manual. -/
structure ManualDraft where
  /-- The text, once read. -/
  text : Option String
  /-- The interface, once read. -/
  interface : Option Interface

namespace ManualDraft

/-- One more field of a manual. -/
def field (room : Nat) (draft : ManualDraft) (key : String) : Except Flaw (Form ManualDraft) :=
  if key = textKey then
    Form.once draft.text Form.string fun found => { draft with text := found }
  else if key = interfaceKey then
    Form.once draft.interface (Stored.interface room) fun found =>
      { draft with interface := found }
  else .ok (Form.ignored draft)

/-- The finished manual. -/
def finish (draft : ManualDraft) : Except Flaw Manual := do
  let text ← Form.required draft.text
  let interface ← Form.required draft.interface
  .ok ⟨text, interface⟩

end ManualDraft

/-- The form of a manual with so many brackets and braces at most. -/
def manual : Nat → Form Manual
  | 0 => exhausted
  | room + 1 => fun tokens =>
    match tokens with
    | .openRecord :: rest => do
      let (draft, rest) ← Form.record (ManualDraft.field room) ⟨none, none⟩ rest
      let found ← draft.finish
      .ok (found, rest)
    | .openList :: rest => do
      let (text, rest) ← Form.string rest
      let rest ← Form.skipToken .comma rest
      let (interface, rest) ← interface room rest
      let rest ← Form.skipToken .closeList rest
      .ok (⟨text, interface⟩, rest)
    | _ => .error .malformed

end Stored

/-- The interface stored in a JSON text. -/
def Interface.ofJson (text : String) : Except Flaw Interface :=
  (Stored.interface Stored.nestingLimit).all (Token.ofText text.toList)

/-- The manual stored in a JSON text. -/
def Manual.ofJson (text : String) : Except Flaw Manual :=
  (Stored.manual Stored.nestingLimit).all (Token.ofText text.toList)

end Synopsis

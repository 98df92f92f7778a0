import Synopsis.Json.Token
import Synopsis.Json.Value
import Synopsis.Proofs.List

/-!
# What a value is written with

A value is written with certain tokens in either layout, and with a certain number of brackets and
braces that are open at once.
-/
namespace Synopsis.Json.Value

/-- Lists of tokens with commas between them. -/
def joined : List (List Token) → List Token
  | [] => []
  | first :: later => first ++ later.flatMap (.comma :: ·)

mutual

/-- The tokens of a value. -/
def tokens : Value → List Token
  | .null => [.null]
  | .truth value => [.truth value]
  | .string content => [.string (some content)]
  | .list members => .openList :: joined (memberTokens members) ++ [.closeList]
  | .record fields => .openRecord :: joined (fieldTokens fields) ++ [.closeRecord]

/-- The tokens of each member of a list. -/
def memberTokens : List Value → List (List Token)
  | [] => []
  | first :: later => tokens first :: memberTokens later

/-- The tokens of each field of a record. -/
def fieldTokens : List (List Char × Value) → List (List Token)
  | [] => []
  | (key, value) :: later =>
    (.string (some key) :: .colon :: tokens value) :: fieldTokens later

end

mutual

/-- How many brackets and braces of a written value are open at once. -/
def nesting : Value → Nat
  | .null => 0
  | .truth _ => 0
  | .string _ => 0
  | .list members => 1 + nestingOfMembers members
  | .record fields => 1 + nestingOfFields fields

/-- How many are open at once in a member of a list. -/
def nestingOfMembers : List Value → Nat
  | [] => 0
  | first :: later => max (nesting first) (nestingOfMembers later)

/-- How many are open at once in a field of a record. -/
def nestingOfFields : List (List Char × Value) → Nat
  | [] => 0
  | (_, value) :: later => max (nesting value) (nestingOfFields later)

end

/-- The first token of a value closes no list. -/
theorem exists_first_token (value : Value) :
    ∃ first more, value.tokens = first :: more ∧ first ≠ .closeList := by
  cases value with
  | null => exact ⟨.null, _, rfl, nofun⟩
  | truth value => exact ⟨.truth value, _, rfl, nofun⟩
  | string content => exact ⟨.string (some content), _, rfl, nofun⟩
  | list members => exact ⟨.openList, _, rfl, nofun⟩
  | record fields => exact ⟨.openRecord, _, rfl, nofun⟩

/-- The tokens of the members of a list are those of each member. -/
theorem memberTokens_eq (members : List Value) : memberTokens members = members.map tokens := by
  induction members with
  | nil => rfl
  | cons first later ih => rw [memberTokens, ih, List.map_cons]

/-- The tokens of a field. -/
def fieldText (field : List Char × Value) : List Token :=
  .string (some field.1) :: .colon :: field.2.tokens

/-- The tokens of the fields of a record are those of each field. -/
theorem fieldTokens_eq (fields : List (List Char × Value)) :
    fieldTokens fields = fields.map fieldText := by
  induction fields with
  | nil => rfl
  | cons first later ih => rw [fieldTokens, ih, List.map_cons, fieldText]

/-- There are more tokens than members after the first one. -/
theorem length_lt_joined (first : List Token) (later : List (List Token)) (last : Token)
    (rest : List Token) :
    later.length < (first ++ later.flatMap (.comma :: ·) ++ last :: rest).length := by
  have commas : later.length ≤ (later.flatMap (Token.comma :: ·)).length :=
    length_le_length_flatMap (fun text => List.cons_ne_nil Token.comma text) later
  simp only [List.length_append, List.length_cons]
  omega

end Synopsis.Json.Value

import Synopsis.Proofs.Json.String
import Synopsis.Proofs.Json.Value

/-!
# Written values cut into tokens

The text of a value is cut into the tokens of the value, whatever the blanks between them. Texts
that are cut well one by one are cut well one after the other, since no written token runs on.
-/
namespace Synopsis.Json

/-- A text that is cut into certain tokens, whatever follows it. -/
structure Cuts (text : List Char) (tokens : List Token) : Prop where
  /-- The text has room for the tokens. -/
  room : tokens.length ≤ text.length
  /-- The tokens come first, and then those of what follows. -/
  first : ∀ (bound : Nat) (rest : List Char),
    Token.cut (tokens.length + bound) (text ++ rest) = tokens ++ Token.cut bound rest

/-- A text that is cut into tokens consists of them. -/
theorem Cuts.ofText {text : List Char} {tokens : List Token} (cuts : Cuts text tokens) :
    Token.ofText text = tokens := by
  have whole := cuts.first (text.length - tokens.length) []
  rw [Nat.add_sub_cancel' cuts.room, List.append_nil] at whole
  rw [Token.ofText, whole]
  cases text.length - tokens.length with
  | zero => exact List.append_nil tokens
  | succ bound => exact List.append_nil tokens

/-- Blanks hold no token. -/
theorem cuts_gap {gap : List Char} (blank : ∀ c ∈ gap, isGap c = true) : Cuts gap [] := by
  refine ⟨Nat.zero_le _, fun bound rest => ?_⟩
  rw [List.length_nil, Nat.zero_add, List.nil_append]
  cases bound with
  | zero => rfl
  | succ bound => rw [Token.cut, Token.cut, List.dropWhile_append_of_pos blank]

/-- Texts one after the other are cut one after the other. -/
theorem Cuts.append {one two : List Char} {first second : List Token} (cuts : Cuts one first)
    (more : Cuts two second) : Cuts (one ++ two) (first ++ second) := by
  refine ⟨?_, fun bound rest => ?_⟩
  · have room := cuts.room
    have roomMore := more.room
    rw [List.length_append, List.length_append]
    omega
  · rw [List.length_append, Nat.add_assoc, List.append_assoc, cuts.first, more.first,
      List.append_assoc]

/-- A text that begins with one token and ends with it is that token. -/
theorem cuts_token {c : Char} {text : List Char} {token : Token} (filled : isGap c = false)
    (front : ∀ rest, Token.front? (c :: text ++ rest) = some (token, rest)) :
    Cuts (c :: text) [token] := by
  refine ⟨Nat.succ_le_succ (Nat.zero_le _), fun bound rest => ?_⟩
  have whole := front rest
  rw [List.cons_append] at whole ⊢
  rw [List.length_singleton, Nat.add_comm, Token.cut, List.dropWhile_cons, filled]
  simp only [Bool.false_eq_true, if_false, whole, List.singleton_append]

/-- A written string is one token. -/
theorem cuts_writeString (content : List Char) :
    Cuts (writeString content) [.string (some content)] :=
  cuts_token rfl (front?_writeString content)

/-- Texts that each follow a comma are cut into tokens that each follow one. -/
theorem cuts_commas {gap : List Char} (blank : ∀ c ∈ gap, isGap c = true)
    {texts : List (List Char)} {tokens : List (List Token)}
    (each : List.Forall₂ Cuts texts tokens) :
    Cuts (texts.flatMap fun member => ',' :: gap ++ member) (tokens.flatMap (.comma :: ·)) := by
  induction each with
  | nil => exact cuts_gap fun c mem => absurd mem List.not_mem_nil
  | cons one more ih =>
    have comma : Cuts [','] [.comma] := cuts_token rfl fun rest => rfl
    exact ((comma.append (cuts_gap blank)).append one).append ih

/-- Blanks that are written between tokens. -/
structure Layout.Blank (layout : Layout) : Prop where
  /-- A line break is one. -/
  lineBreak : ∀ level, ∀ c ∈ layout.lineBreak level, isGap c = true
  /-- What follows a colon is one. -/
  afterColon : ∀ c ∈ layout.afterColon, isGap c = true

/-- No layout puts anything else on one line. -/
theorem blank_compact : Layout.compact.Blank :=
  ⟨fun _ _ mem => absurd mem List.not_mem_nil, fun _ mem => absurd mem List.not_mem_nil⟩

/-- Indentation is blank. -/
theorem blank_indented : Layout.indented.Blank := by
  refine ⟨fun level c mem => ?_, fun c mem => ?_⟩
  · rcases List.mem_cons.1 mem with rfl | spaces
    · rfl
    · rw [(List.mem_replicate.1 spaces).2]
      rfl
  · rw [List.mem_singleton.1 mem]
    rfl

/-- Members between brackets are cut into their tokens between the tokens of the brackets. -/
theorem cuts_bracket {layout : Layout} (blank : layout.Blank) {opening closing : Char}
    {first last : Token} (opens : Cuts [opening] [first]) (closes : Cuts [closing] [last])
    (level : Nat) {texts : List (List Char)} {tokens : List (List Token)}
    (each : List.Forall₂ Cuts texts tokens) :
    Cuts (Value.bracket layout level opening closing texts)
      (first :: Value.joined tokens ++ [last]) := by
  cases each with
  | nil => exact opens.append closes
  | cons one more =>
    have inside := cuts_gap (blank.lineBreak (level + 1))
    have body := (inside.append one).append (cuts_commas (blank.lineBreak (level + 1)) more)
    have whole := opens.append ((body.append (cuts_gap (blank.lineBreak level))).append closes)
    simpa only [Value.bracket, Value.joined, List.append_assoc, List.cons_append, List.nil_append]
      using whole

mutual

/-- A written value is cut into its tokens. -/
theorem cuts_write {layout : Layout} (blank : layout.Blank) (level : Nat) :
    ∀ value : Value, Cuts (value.write layout level) value.tokens
  | .null => cuts_token rfl fun rest => rfl
  | .truth true => cuts_token rfl fun rest => rfl
  | .truth false => cuts_token rfl fun rest => rfl
  | .string content => cuts_writeString content
  | .list members => by
    rw [Value.write, Value.tokens]
    exact cuts_bracket blank (cuts_token rfl fun rest => rfl) (cuts_token rfl fun rest => rfl) level
      (cuts_writeMembers blank (level + 1) members)
  | .record fields => by
    rw [Value.write, Value.tokens]
    exact cuts_bracket blank (cuts_token rfl fun rest => rfl) (cuts_token rfl fun rest => rfl) level
      (cuts_writeFields blank (level + 1) fields)

/-- The written members of a list are cut into their tokens. -/
theorem cuts_writeMembers {layout : Layout} (blank : layout.Blank) (level : Nat) :
    ∀ members : List Value,
      List.Forall₂ Cuts (Value.writeMembers layout level members) (Value.memberTokens members)
  | [] => .nil
  | first :: later => .cons (cuts_write blank level first) (cuts_writeMembers blank level later)

/-- The written fields of a record are cut into their tokens. -/
theorem cuts_writeFields {layout : Layout} (blank : layout.Blank) (level : Nat) :
    ∀ fields : List (List Char × Value),
      List.Forall₂ Cuts (Value.writeFields layout level fields) (Value.fieldTokens fields)
  | [] => .nil
  | (key, value) :: later => by
    have colon : Cuts [':'] [.colon] := cuts_token rfl fun rest => rfl
    have named := (cuts_writeString key).append (colon.append (cuts_gap blank.afterColon))
    have field := named.append (cuts_write blank level value)
    refine .cons ?_ (cuts_writeFields blank level later)
    simpa only [List.append_assoc, List.cons_append, List.nil_append] using field

end

/-- The tokens of the text of a value are those of the value. -/
theorem ofText_text {layout : Layout} (blank : layout.Blank) (value : Value) :
    Token.ofText (value.text layout).toList = value.tokens := by
  rw [Value.text, String.toList_ofList]
  exact (cuts_write blank 0 value).ofText

end Synopsis.Json

import Mathlib.Data.List.Forall2
import Synopsis.Json.Form
import Synopsis.Proofs.Atom.Spelling
import Synopsis.Proofs.Except
import Synopsis.Proofs.Json.Value

/-!
# What forms read

A form takes the tokens of a value as something of its type, whatever follows them; and whatever
it reads of any tokens has the properties that its parts give. Both are settled here for the forms
of strings, atoms, lists and records, over any form of their members.
-/
namespace Synopsis.Json.Form

variable {α σ : Type}

/-- A form takes some tokens as what is given, whatever follows them. -/
def Takes (form : Form α) (tokens : List Token) (found : α) : Prop :=
  ∀ rest, form (tokens ++ rest) = .ok (found, rest)

/-- Whatever a form reads has a property. -/
def Yields (form : Form α) (holds : α → Prop) : Prop :=
  ∀ {tokens rest : List Token} {found : α}, form tokens = .ok (found, rest) → holds found

/-- A form that takes all of some tokens reads them as what it takes them as. -/
theorem all_of_takes {form : Form α} {tokens : List Token} {found : α}
    (takes : Takes form tokens found) : all form tokens = .ok found := by
  have whole := takes []
  rw [List.append_nil] at whole
  exact bind_ok_iff.2 ⟨_, whole, rfl⟩

/-- What is read of all of some tokens has what the form yields. -/
theorem holds_of_all {form : Form α} {holds : α → Prop} {tokens : List Token} {found : α}
    (read : Yields form holds) (done : all form tokens = .ok found) : holds found := by
  obtain ⟨⟨one, rest⟩, given, ended⟩ := bind_ok_iff.1 done
  dsimp only at ended
  split at ended
  · obtain rfl := Except.ok.inj ended
    exact read given
  · contradiction

/-- A string is taken as its content. -/
theorem takes_string (content : List Char) :
    Takes string [.string (some content)] (String.ofList content) := fun _ => rfl

/-- A truth value is taken as such. -/
theorem takes_truth (value : Bool) : Takes truth [.truth value] value := fun _ => rfl

/-- The spelling of a well-formed atom is taken as the atom. -/
theorem takes_atom {found : Atom} (formed : found.wellFormed = true) :
    Takes atom [.string (some found.spell)] found := by
  intro rest
  refine bind_ok_iff.2 ⟨_, takes_string found.spell rest, ?_⟩
  rw [← Atom.spelling]
  simp only [Atom.read_spelling formed]

/-- Every atom that is read is well formed. -/
theorem yields_atom : Yields atom fun found => found.wellFormed = true := by
  intro tokens rest found done
  obtain ⟨⟨content, last⟩, -, read⟩ := bind_ok_iff.1 done
  dsimp only at read
  split at read
  · next given =>
    obtain ⟨rfl, -⟩ := ok_pair_inj read
    exact Atom.wellFormed_of_read given
  · contradiction

section List

variable {member : Form α}

/-- Members with commas between them are taken up to the closing bracket. -/
theorem takes_members {first : List Token} {found : α} (one : Takes member first found)
    {tokens : List (List Token)} {later : List α} (more : List.Forall₂ (Takes member) tokens later)
    {bound : Nat} (enough : tokens.length < bound) (rest : List Token) :
    members member bound (first ++ tokens.flatMap (.comma :: ·) ++ .closeList :: rest) =
      .ok (found :: later, rest) := by
  induction more generalizing first found bound with
  | nil =>
    obtain ⟨bound, rfl⟩ := Nat.exists_eq_succ_of_ne_zero (Nat.ne_of_gt enough)
    rw [List.flatMap_nil, List.append_nil, members, one]
    rfl
  | @cons tokens next texts values second more ih =>
    obtain ⟨bound, rfl⟩ := Nat.exists_eq_succ_of_ne_zero (Nat.ne_zero_of_lt enough)
    have tail := ih second (Nat.lt_of_succ_lt_succ enough)
    rw [List.append_assoc] at tail
    rw [List.flatMap_cons, List.append_assoc, List.append_assoc, members, one]
    exact bind_ok_iff.2 ⟨_, rfl, bind_ok_iff.2 ⟨_, tail, rfl⟩⟩

/-- A list is taken as what its members are taken as. -/
theorem takes_list {values : List Value} {found : List α}
    (each : List.Forall₂ (fun value one => Takes member value.tokens one) values found) :
    Takes (list member) (Value.list values).tokens found := by
  intro rest
  rw [Value.tokens, Value.memberTokens_eq]
  cases each with
  | nil => rfl
  | @cons value one values later first more =>
    obtain ⟨token, text, begins, noEnd⟩ := value.exists_first_token
    have texts : List.Forall₂ (Takes member) (values.map Value.tokens) later :=
      List.forall₂_map_left_iff.2 more
    have enough := Value.length_lt_joined value.tokens (values.map Value.tokens) .closeList rest
    have inside := takes_members first texts enough rest
    have shape : Value.joined (value.tokens :: values.map Value.tokens) ++ [.closeList] ++ rest =
        value.tokens ++ (values.map Value.tokens).flatMap (.comma :: ·) ++ .closeList :: rest := by
      rw [Value.joined, List.append_assoc, List.singleton_append]
    rw [List.map_cons, List.cons_append, List.cons_append, shape, list]
    · exact inside
    · intro last same
      rw [begins] at same
      exact noEnd (List.cons.inj same).1

/-- Members that are read each have what each member that is read has. -/
theorem yields_members {holds : α → Prop} (each : Yields member holds) (bound : Nat) :
    Yields (members member bound) fun found => ∀ one ∈ found, holds one := by
  induction bound with
  | zero => exact nofun
  | succ bound ih =>
    intro tokens rest found done
    rw [members] at done
    obtain ⟨⟨first, next⟩, one, done⟩ := bind_ok_iff.1 done
    dsimp only at done
    split at done
    · obtain ⟨⟨later, last⟩, more, same⟩ := bind_ok_iff.1 done
      obtain ⟨rfl, -⟩ := ok_pair_inj same
      exact List.forall_mem_cons.2 ⟨each one, ih more⟩
    · obtain ⟨rfl, -⟩ := ok_pair_inj done
      exact List.forall_mem_singleton.2 (each one)
    · contradiction

/-- The members of a list that is read have what each member that is read has. -/
theorem yields_list {holds : α → Prop} (each : Yields member holds) :
    Yields (list member) fun found => ∀ one ∈ found, holds one := by
  intro tokens rest found done
  unfold list at done
  split at done
  · obtain ⟨rfl, -⟩ := ok_pair_inj done
    exact fun one mem => absurd mem List.not_mem_nil
  · exact yields_members each _ done
  · contradiction

end List

section Record

open Value (fieldText)

variable {field : σ → String → Except Flaw (Form σ)}

/-- The fields of a record, one by one, make something known of what was known before. -/
inductive Fills (field : σ → String → Except Flaw (Form σ)) :
    σ → List (List Char × Value) → σ → Prop where
  /-- No fields. -/
  | done (known : σ) : Fills field known [] known
  /-- A field whose key gives a form that takes its value, and more fields. -/
  | next {known after last : σ} {key : List Char} {value : Value} {form : Form σ}
      {later : List (List Char × Value)} (named : field known (String.ofList key) = .ok form)
      (takes : Takes form value.tokens after) (more : Fills field after later last) :
      Fills field known ((key, value) :: later) last

/-- A field is taken together with the comma after it. -/
theorem fields_comma {known after : σ} {key : List Char} {value : Value} {form : Form σ}
    (named : field known (String.ofList key) = .ok form) (takes : Takes form value.tokens after)
    (bound : Nat) (next : List Token) :
    fields field (bound + 1) known (fieldText (key, value) ++ .comma :: next) =
      fields field bound after next := by
  rw [fieldText, List.cons_append, List.cons_append, fields]
  simp only [string, skipToken, named, if_true, bind, Except.bind]
  rw [takes]

/-- The last field is taken together with the closing brace. -/
theorem fields_closeRecord {known after : σ} {key : List Char} {value : Value} {form : Form σ}
    (named : field known (String.ofList key) = .ok form) (takes : Takes form value.tokens after)
    (bound : Nat) (last : List Token) :
    fields field (bound + 1) known (fieldText (key, value) ++ .closeRecord :: last) =
      .ok (after, last) := by
  rw [fieldText, List.cons_append, List.cons_append, fields]
  simp only [string, skipToken, named, if_true, bind, Except.bind]
  rw [takes]

/-- Fields with commas between them are taken up to the closing brace. -/
theorem takes_fields {later : List (List Char × Value)} {known last : σ}
    {first : List Char × Value} (fills : Fills field known (first :: later) last) {bound : Nat}
    (enough : later.length < bound) (rest : List Token) :
    fields field bound known
      (fieldText first ++ (later.map fieldText).flatMap (.comma :: ·) ++ .closeRecord :: rest) =
      .ok (last, rest) := by
  induction later generalizing known first bound with
  | nil =>
    obtain ⟨bound, rfl⟩ := Nat.exists_eq_succ_of_ne_zero (Nat.ne_of_gt enough)
    cases fills with
    | next named takes more =>
      cases more with
      | done =>
        rw [List.map_nil, List.flatMap_nil, List.append_nil]
        exact fields_closeRecord named takes bound rest
  | cons second later ih =>
    obtain ⟨bound, rfl⟩ := Nat.exists_eq_succ_of_ne_zero (Nat.ne_zero_of_lt enough)
    cases fills with
    | next named takes more =>
      have tail := ih more (Nat.lt_of_succ_lt_succ enough)
      rw [List.map_cons, List.flatMap_cons, List.append_assoc, List.append_assoc, List.cons_append,
        fields_comma named takes, ← List.append_assoc, tail]

/-- A record, whose opening brace is already read, is taken as what its fields make known. -/
theorem takes_record {unknown known : σ} {entries : List (List Char × Value)}
    (fills : Fills field unknown entries known) :
    Takes (record field unknown)
      (Value.joined (Value.fieldTokens entries) ++ [.closeRecord]) known := by
  intro rest
  rw [Value.fieldTokens_eq]
  cases entries with
  | nil =>
    cases fills with
    | done => rfl
  | cons first later =>
    have enough := Value.length_lt_joined (fieldText first) (later.map fieldText) .closeRecord rest
    rw [List.length_map] at enough
    rw [List.append_assoc, List.singleton_append]
    exact takes_fields fills enough rest

/-- A field that is read for the first time is taken as what its value is taken as. -/
theorem fills_once {field : σ → String → Except Flaw (Form σ)} {known last : σ} {key : String}
    {value : Value} {part : Form α} {set : Option α → σ} {found : α}
    {later : List (List Char × Value)} (named : field known key = once none part set)
    (takes : Takes part value.tokens found) (more : Fills field (set (some found)) later last) :
    Fills field known ((key.toList, value) :: later) last := by
  refine .next ((String.ofList_toList (s := key)).symm ▸ named) (fun rest => ?_) more
  exact bind_ok_iff.2 ⟨_, takes rest, rfl⟩

/-- What is known after reading fields has what every field that is read keeps. -/
theorem yields_fields {keeps : σ → Prop}
    (each : ∀ {known key form}, keeps known → field known key = .ok form → Yields form keeps)
    (bound : Nat) {known : σ} (before : keeps known) : Yields (fields field bound known) keeps := by
  induction bound generalizing known with
  | zero => exact nofun
  | succ bound ih =>
    intro tokens rest found done
    rw [fields] at done
    obtain ⟨⟨key, afterKey⟩, -, done⟩ := bind_ok_iff.1 done
    obtain ⟨form, named, done⟩ := bind_ok_iff.1 done
    obtain ⟨afterColon, -, done⟩ := bind_ok_iff.1 done
    obtain ⟨⟨after, next⟩, value, done⟩ := bind_ok_iff.1 done
    have kept := each before named value
    dsimp only at done
    split at done
    · exact ih kept done
    · obtain ⟨rfl, -⟩ := ok_pair_inj done
      exact kept
    · contradiction

/-- What is known after reading a record has what every field that is read keeps. -/
theorem yields_record {keeps : σ → Prop}
    (each : ∀ {known key form}, keeps known → field known key = .ok form → Yields form keeps)
    {unknown : σ} (before : keeps unknown) : Yields (record field unknown) keeps := by
  intro tokens rest found done
  unfold record at done
  split at done
  · obtain ⟨rfl, -⟩ := ok_pair_inj done
    exact before
  · exact yields_fields each _ before done

/-- A field that is read once gives what its value has. -/
theorem yields_once {holds : α → Prop} {keeps : σ → Prop} {value : Form α} {form : Form σ}
    {known : Option α} {set : Option α → σ} (named : once known value set = .ok form)
    (read : Yields value holds) (sets : ∀ found, holds found → keeps (set (some found))) :
    Yields form keeps := by
  unfold once at named
  split at named
  · contradiction
  · obtain rfl := Except.ok.inj named
    intro tokens rest found done
    obtain ⟨⟨one, last⟩, given, same⟩ := bind_ok_iff.1 done
    obtain ⟨rfl, -⟩ := ok_pair_inj same
    exact sets one (read given)

/-- A field of no interest changes nothing. -/
theorem yields_ignored {keeps : σ → Prop} {known : σ} (before : keeps known) :
    Yields (ignored known) keeps := by
  intro tokens rest found done
  obtain ⟨last, -, same⟩ := bind_ok_iff.1 done
  obtain ⟨rfl, -⟩ := ok_pair_inj same
  exact before

end Record

end Synopsis.Json.Form

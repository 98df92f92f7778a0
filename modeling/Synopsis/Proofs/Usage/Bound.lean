import Synopsis.Proofs.Usage.Line

/-!
# Levels of brackets

What is read in brackets is less of the text. So there are fewer levels of brackets than characters,
and with any larger number of levels the same is read: the bound on this number never shows.
-/
namespace Synopsis.Usage

open Text

/-- A change that changes nothing keeps all lines. -/
theorem keepsLines_id : KeepsLines id where
  other _ := rfl
  feed := .feed
  nil := .nil
  length suffix := suffix.length_le

/-- A change that changes nothing is transparent. -/
theorem transparent_id : Transparent id := transparent_of_keepsLines keepsLines_id

/-- A fault at its place is the same one after a change that changes nothing. -/
theorem changed_id_of_stands {fault : Fault} {text : List Char} (stands : fault.Stands text) :
    fault.changed id = fault := by
  obtain ⟨what, same, changed⟩ := stands.changed_eq
  rw [changed]
  exact same.symm

/-- The outcome of a reader is the same after a change that changes nothing. -/
theorem outcome_changed_id {read : Reader}
    (stands : ∀ {text fault}, read text = .failed fault → fault.Stands text) (text : List Char) :
    (read text).changed id = read text := by
  cases done : read text with
  | accepted fragment rest => rfl
  | declined => rfl
  | failed fault => exact congrArg Outcome.failed (changed_id_of_stands (stands done))

/-- With more levels of brackets than characters, an expression is read. -/
theorem expressionTo_eq {depth : Nat} {text : List Char} (enough : text.length < depth) :
    expressionTo depth text = expression text := by
  have same := expressionTo_changed transparent_id enough (Nat.lt_succ_self (id text).length)
  exact ((outcome_changed_id (expressionTo_stands depth) text).symm.trans same.symm)

/-- An expression is read with any reader that reads the expressions behind its first character as
they are read. -/
theorem expressionWith_eq {read : Reader} {text : List Char}
    (behind : ∀ rest, Advances text rest → read rest = expression rest) :
    expressionWith read text = expression text := by
  have inner : ∀ c inside, text = c :: inside → id text = c :: id inside →
      Agrees id (expressionTo text.length) read inside := by
    intro c inside same _ rest suffix
    have advances : Advances text rest := same ▸ advances_cons suffix
    have bounded := expressionTo_eq advances.shorter
    exact (behind rest advances).trans
      (bounded.symm.trans (outcome_changed_id (expressionTo_stands _) rest).symm)
  have alike := expressionWith_changed transparent_id (expressionTo_remains _) inner
  have own : (expression text).changed id = expression text :=
    outcome_changed_id (expressionTo_stands (text.length + 1)) text
  exact alike.trans own

/-- The alternatives of a line are read with the reader for expressions. -/
theorem lineAlternatives_eq (text : List Char) :
    lineAlternatives text = alternatives expression text := by
  have agrees : Agrees id (expressionTo (text.length + 1)) expression text := by
    intro rest suffix
    have bounded := expressionTo_eq (Nat.lt_succ_of_le suffix.length_le)
    exact bounded.symm.trans (outcome_changed_id (expressionTo_stands _) rest).symm
  have alike := alternatives_changed transparent_id (expressionTo_remains _) agrees
  rw [lineAlternatives]
  refine Eq.trans ?_ alike.symm
  cases done : alternatives (expressionTo (text.length + 1)) text with
  | ok found => rfl
  | error fault =>
    exact congrArg Except.error (changed_id_of_stands (alternatives_stands _ done)).symm

end Synopsis.Usage

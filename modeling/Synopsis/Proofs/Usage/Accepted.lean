import Synopsis.Proofs.Except
import Synopsis.Usage.Block

/-!
# What the readers accept

An accepted sequence, choice or bracket is made of accepted expressions and of what stands between
them, and a usage block of accepted usage lines. Each reader is taken apart here once, over any
property of the expressions and of the texts before and after them.
-/
namespace Synopsis.Usage

open Text (skipBlanks blanks?)

/-- A property of fragments and of the texts before and after them. -/
abbrev Extent := Fragment → List Char → List Char → Prop

/-- Expressions that each follow at least one blank, up to where no more of them are read. -/
inductive Spaced (holds : Extent) : List Fragment → List Char → List Char → Prop where
  /-- No expression. -/
  | none (text : List Char) : Spaced holds [] text text
  /-- A blank, an expression, and more of them. -/
  | next {text gap rest last : List Char} {first : Fragment} {later : List Fragment}
      (blank : blanks? text = some gap) (one : holds first gap rest)
      (more : Spaced holds later rest last) : Spaced holds (first :: later) text last

/-- The expressions of a sequence, of which only the first may stand without a blank. -/
inductive InOrder (holds : Extent) : List Fragment → List Char → List Char → Prop where
  /-- No expression. -/
  | none (text : List Char) : InOrder holds [] text text
  /-- An expression, and more of them after blanks. -/
  | some {text rest last : List Char} {first : Fragment} {later : List Fragment}
      (one : holds first (skipBlanks text) rest) (more : Spaced holds later rest last) :
      InOrder holds (first :: later) text last

/-- Sequences that each follow a bar. -/
inductive Barred (holds : Extent) : List Fragment → List Char → List Char → Prop where
  /-- No sequence. -/
  | none (text : List Char) : Barred holds [] text text
  /-- A bar, a sequence, and more of them. -/
  | next {text inside rest last : List Char} {parts branches : List Fragment}
      (bar : skipBlanks text = '|' :: inside) (one : InOrder holds parts inside rest)
      (more : Barred holds branches rest last) :
      Barred holds (.sequence parts :: branches) text last

/-- Sequences set apart by bars, as one choice. -/
inductive Branched (holds : Extent) : Extent where
  /-- A sequence, and more of them after bars. -/
  | choice {text rest last : List Char} {parts branches : List Fragment}
      (one : InOrder holds parts text rest) (more : Barred holds branches rest last) :
      Branched holds (.choice (.sequence parts :: branches)) text last

/-- An expression before any ellipsis. -/
inductive Unit (holds : Extent) : Extent where
  /-- An expression without brackets around alternatives. -/
  | simple {text rest : List Char} {fragment : Fragment}
      (read : simple? text = some (fragment, rest)) : Unit holds fragment text rest
  /-- Alternatives in square brackets. -/
  | square {text rest last : List Char} {body : Fragment} (inside : Branched holds body text rest)
      (closed : skipBlanks rest = ']' :: last) : Unit holds body.optional ('[' :: text) last
  /-- Alternatives in parentheses. -/
  | round {text rest last : List Char} {body : Fragment} (inside : Branched holds body text rest)
      (closed : skipBlanks rest = ')' :: last) : Unit holds body ('(' :: text) last

/-- An expression with the ellipsis after it, if there is one. -/
inductive Expressed (holds : Extent) : Extent where
  /-- No ellipsis follows. -/
  | once {text rest : List Char} {fragment : Fragment} (one : Unit holds fragment text rest) :
      Expressed holds fragment text rest
  /-- An ellipsis follows. -/
  | often {text rest last : List Char} {fragment : Fragment} (one : Unit holds fragment text rest)
      (dots : skipBlanks rest = '.' :: '.' :: '.' :: last) :
      Expressed holds fragment.repeated text last

/-- Every expression that the reader accepts has the property. -/
def Reader.Accepts (read : Reader) (holds : Extent) : Prop :=
  ∀ {text : List Char} {fragment : Fragment} {rest : List Char},
    read text = .accepted fragment rest → holds fragment text rest

section Reader

variable {read : Reader} {holds : Extent} (accepts : read.Accepts holds)

include accepts

/-- What is read after the first expression of a sequence. -/
theorem moreExpressions_accepts {bound : Nat} {text last : List Char} {fragments : List Fragment}
    (done : moreExpressions read bound text = .ok (fragments, last)) :
    Spaced holds fragments text last := by
  induction bound generalizing text fragments with
  | zero =>
    obtain ⟨rfl, rfl⟩ := ok_pair_inj done
    exact .none text
  | succ bound ih =>
    rw [moreExpressions] at done
    split at done
    · obtain ⟨rfl, rfl⟩ := ok_pair_inj done
      exact .none text
    · next gap blank =>
      split at done
      · obtain ⟨rfl, rfl⟩ := ok_pair_inj done
        exact .none text
      · contradiction
      · next fragment rest one =>
        split at done
        · contradiction
        · next later stop more =>
          obtain ⟨rfl, rfl⟩ := ok_pair_inj done
          exact .next blank (accepts one) (ih more)

/-- What is read as a sequence. -/
theorem sequence_accepts {text last : List Char} {fragment : Fragment}
    (done : sequence read text = .ok (fragment, last)) :
    ∃ parts, fragment = .sequence parts ∧ InOrder holds parts text last := by
  rw [sequence] at done
  split at done
  · obtain ⟨rfl, rfl⟩ := ok_pair_inj done
    exact ⟨[], rfl, .none text⟩
  · contradiction
  · next first rest one =>
    split at done
    · contradiction
    · next later stop more =>
      obtain ⟨rfl, rfl⟩ := ok_pair_inj done
      exact ⟨first :: later, rfl, .some (accepts one) (moreExpressions_accepts accepts more)⟩

/-- What is read after the first branch of a choice. -/
theorem moreBranches_accepts {bound : Nat} {text last : List Char} {branches : List Fragment}
    (done : moreBranches read bound text = .ok (branches, last)) :
    Barred holds branches text last := by
  induction bound generalizing text branches with
  | zero =>
    obtain ⟨rfl, rfl⟩ := ok_pair_inj done
    exact .none text
  | succ bound ih =>
    rw [moreBranches] at done
    split at done
    · next inside bar =>
      split at done
      · contradiction
      · next branch rest one =>
        split at done
        · contradiction
        · next later stop more =>
          obtain ⟨rfl, rfl⟩ := ok_pair_inj done
          obtain ⟨parts, rfl, ordered⟩ := sequence_accepts accepts one
          exact .next bar ordered (ih more)
    · obtain ⟨rfl, rfl⟩ := ok_pair_inj done
      exact .none text

/-- What is read as alternatives. -/
theorem alternatives_accepts {text last : List Char} {fragment : Fragment}
    (done : alternatives read text = .ok (fragment, last)) :
    Branched holds fragment text last := by
  rw [alternatives] at done
  split at done
  · contradiction
  · next branch rest one =>
    split at done
    · contradiction
    · next later stop more =>
      obtain ⟨rfl, rfl⟩ := ok_pair_inj done
      obtain ⟨parts, rfl, ordered⟩ := sequence_accepts accepts one
      exact .choice ordered (moreBranches_accepts accepts more)

/-- What is read up to a closing bracket. -/
theorem enclosed_accepts {bracket : Bracket} {text last : List Char} {fragment : Fragment}
    (done : enclosed read bracket text = .accepted fragment last) :
    ∃ body rest, fragment = bracket.apply body ∧ Branched holds body text rest ∧
      skipBlanks rest = bracket.closing :: last := by
  rw [enclosed] at done
  split at done
  · contradiction
  · next body rest inside =>
    split at done
    · next c stop closed =>
      split at done
      · next same =>
        obtain ⟨rfl, rfl⟩ := Outcome.accepted.inj done
        exact ⟨body, rest, rfl, alternatives_accepts accepts inside, same ▸ closed⟩
      · contradiction
    · contradiction

/-- What is read as an expression before any ellipsis. -/
theorem unit_accepts {text last : List Char} {fragment : Fragment}
    (done : unit read text = .accepted fragment last) : Unit holds fragment text last := by
  unfold unit at done
  split at done
  · obtain ⟨body, rest, rfl, inside, closed⟩ := enclosed_accepts accepts done
    exact .square inside closed
  · obtain ⟨body, rest, rfl, inside, closed⟩ := enclosed_accepts accepts done
    exact .round inside closed
  · split at done
    · next simple =>
      obtain ⟨rfl, rfl⟩ := Outcome.accepted.inj done
      exact .simple simple
    · contradiction

/-- What is read as an expression. -/
theorem expressionWith_accepts : Reader.Accepts (expressionWith read) (Expressed holds) := by
  intro text fragment last done
  rw [expressionWith] at done
  split at done
  · next body rest one =>
    have unit := unit_accepts accepts one
    rw [withEllipsis] at done
    split at done
    · next dots =>
      obtain ⟨rfl, rfl⟩ := Outcome.accepted.inj done
      exact .often unit dots
    · obtain ⟨rfl, rfl⟩ := Outcome.accepted.inj done
      exact .once unit
  · contradiction
  · contradiction

end Reader

/-- A property that passes from the expressions in the brackets of an expression to the expression
holds of every expression. -/
theorem expressionTo_accepts {holds : Extent}
    (step : ∀ {text fragment rest}, Expressed holds fragment text rest → holds fragment text rest)
    (depth : Nat) : Reader.Accepts (expressionTo depth) holds := by
  induction depth with
  | zero =>
    intro text fragment rest done
    contradiction
  | succ depth ih =>
    intro text fragment rest done
    exact step (expressionWith_accepts ih done)

/-- What is read as a usage line: alternatives after the name of the program, up to the end of the
line. -/
theorem usageLine_accepts {holds : Extent}
    (step : ∀ {text fragment rest}, Expressed holds fragment text rest → holds fragment text rest)
    {line rest : List Char} {fragment : Fragment}
    (read : usageLine line = .ok (fragment, rest)) :
    ∃ left, Branched holds fragment (skipProgram line) left ∧ rest = skipBlanks left ∧
      atLineEnd rest = true := by
  rw [usageLine] at read
  split at read
  · contradiction
  · next body left done =>
    dsimp only at read
    split at read
    · next ended =>
      obtain ⟨rfl, rfl⟩ := ok_pair_inj read
      exact ⟨left, alternatives_accepts (expressionTo_accepts step _) done, rfl, ended⟩
    · contradiction

/-- A usage line is read with the line break after it. -/
theorem turn_eq_ok_iff {line rest : List Char} {later : List (List Char)} {usage : Fragment} :
    turn line later = .ok (usage, rest) ↔
      ∃ stop, usageLine line = .ok (usage, stop) ∧ skipBreak stop = rest := by
  rw [turn]
  cases usageLine line with
  | error fault => exact ⟨nofun, nofun⟩
  | ok found =>
    obtain ⟨one, stop⟩ := found
    constructor
    · intro same
      obtain ⟨rfl, rfl⟩ := ok_pair_inj same
      exact ⟨stop, rfl, rfl⟩
    · rintro ⟨_, same, rfl⟩
      obtain ⟨rfl, rfl⟩ := ok_pair_inj same
      rfl

namespace Block

/-- The lines that a block is read from: usage lines up to a line or a part of a line that ends the
block, or all of them. The flag says that the first line counts in any case. -/
inductive Taken : Bool → List (List Char) → Block → Prop where
  /-- There are no more lines. -/
  | all (anyway : Bool) : Taken anyway [] ⟨[], []⟩
  /-- A line ends the block. -/
  | stop {line : List Char} {later : List (List Char)} (ends : endsBlock line = true) :
      Taken false (line :: later) ⟨[], line :: later⟩
  /-- A usage line, and more of them. -/
  | usage {anyway : Bool} {line rest : List Char} {later : List (List Char)} {found : Fragment}
      {block : Block} (counts : (!anyway && endsBlock line) = false)
      (one : usageLine line = .ok (found, rest)) (whole : skipBreak rest = [])
      (more : Taken false later block) : Taken anyway (line :: later) (block.push found)
  /-- A usage line of which a part ends the block. -/
  | part {anyway : Bool} {line rest : List Char} {later : List (List Char)} {found : Fragment}
      (counts : (!anyway && endsBlock line) = false)
      (one : usageLine line = .ok (found, rest)) (left : skipBreak rest ≠ [])
      (ends : endsBlock (skipBreak rest) = true) :
      Taken anyway (line :: later) ⟨[found], skipBreak rest :: later⟩

/-- A block is read exactly where its lines can be taken so. -/
theorem ofLines_eq_ok_iff {anyway : Bool} {lines : List (List Char)} {block : Block} :
    ofLines anyway lines = .ok block ↔ Taken anyway lines block := by
  constructor
  · intro read
    induction lines generalizing anyway block with
    | nil =>
      obtain rfl := Except.ok.inj read
      exact .all anyway
    | cons line later ih =>
      rw [ofLines] at read
      split at read
      · next ends =>
        obtain rfl := Except.ok.inj read
        rw [Bool.and_eq_true, Bool.not_eq_true'] at ends
        exact ends.1 ▸ .stop ends.2
      · next counts =>
        have counts := Bool.eq_false_iff.2 counts
        split at read
        · contradiction
        · next usage turned =>
          obtain ⟨stop, one, whole⟩ := turn_eq_ok_iff.1 turned
          split at read
          · contradiction
          · next block more =>
            obtain rfl := Except.ok.inj read
            exact .usage counts one whole (ih more)
        · next usage rest filled turned =>
          obtain ⟨stop, one, rfl⟩ := turn_eq_ok_iff.1 turned
          split at read
          · next ends =>
            obtain rfl := Except.ok.inj read
            exact .part counts one filled ends
          · contradiction
  · intro taken
    induction taken with
    | all anyway => rfl
    | stop ends => simp only [ofLines, ends, Bool.not_false, Bool.and_self, if_true]
    | usage counts one whole more ih =>
      simp only [ofLines, counts, Bool.false_eq_true, if_false,
        turn_eq_ok_iff.2 ⟨_, one, whole⟩, ih]
    | @part anyway line rest later found counts one left ends =>
      obtain ⟨c, text, same⟩ := List.exists_cons_of_ne_nil left
      rw [same] at ends
      simp only [ofLines, counts, Bool.false_eq_true, if_false,
        turn_eq_ok_iff.2 ⟨_, one, same⟩, ends, if_true, same]

end Block

end Synopsis.Usage

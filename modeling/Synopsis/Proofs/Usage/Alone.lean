import Synopsis.Proofs.Usage.Accepted
import Synopsis.Proofs.Usage.Option

/-!
# An option alone in a usage line

A usage line whose pattern is a single leaf, and that begins with a hyphen after the name of the
program, holds one option and no second expression. No bracket and no ellipsis stands around it,
since these would show in the pattern, and neither does a branch that is empty.
-/
namespace Synopsis

/-- Only a choice of a single leaf is a leaf. -/
theorem Pattern.choice_eq_leaf {α : Type} {branches : List (Pattern α)} {atom : α}
    (same : choice branches = .leaf atom) : branches = [.leaf atom] := by
  match branches with
  | [] => contradiction
  | [branch] => exact congrArg ([·]) same
  | first :: second :: later => contradiction

/-- Only a sequence of a single leaf is a leaf. -/
theorem Pattern.sequence_eq_leaf {α : Type} {parts : List (Pattern α)} {atom : α}
    (same : sequence parts = .leaf atom) : parts = [.leaf atom] := by
  match parts with
  | [] => contradiction
  | [part] => exact congrArg ([·]) same
  | first :: second :: later => contradiction

namespace Usage

open Text (skipBlanks)

/-- A fragment on its own is a sequence of itself. -/
theorem Fragment.sequence_singleton (part : Fragment) : sequence [part] = part := by
  rw [sequence, List.flatMap_singleton]
  rfl

/-- A fragment on its own is a choice of itself. -/
theorem Fragment.choice_singleton (branch : Fragment) : choice [branch] = branch := by
  rw [choice, List.flatMap_singleton]
  rfl

/-- A written option that is a leaf has a single mention. -/
theorem Fragment.ofMentions_eq_leaf {mentions : List Mention} {atom : Atom}
    (leaf : (ofMentions mentions).pattern = .leaf atom) :
    ∃ valued, mentions = [⟨atom, valued⟩] := by
  match mentions with
  | [] => contradiction
  | [⟨option, valued⟩] =>
    obtain rfl : option = atom := Pattern.leaf.inj leaf
    exact ⟨valued, rfl⟩
  | first :: second :: later => contradiction

/-- What begins with a hyphen and has a leaf for its pattern is a simple expression. -/
def Bare : Extent := fun fragment text rest =>
  ∀ atom, fragment.pattern = .leaf atom → text.head? = some '-' →
    simple? text = some (fragment, rest)

/-- An expression that begins with a hyphen is no group, and its pattern shows an ellipsis. -/
theorem bare_of_expressed {text rest : List Char} {fragment : Fragment}
    (expressed : Expressed Bare fragment text rest) : Bare fragment text rest := by
  intro atom leaf hyphen
  cases expressed with
  | once one =>
    cases one with
    | simple read => exact read
    | square inside closed => exact absurd hyphen (by simp)
    | round inside closed => exact absurd hyphen (by simp)
  | often one dots => exact absurd leaf (by simp [Fragment.repeated])

/-- Alternatives that begin with a hyphen and have a leaf for their pattern are one simple
expression. -/
theorem simple?_of_branched {text rest : List Char} {fragment : Fragment} {atom : Atom}
    (branched : Branched Bare fragment text rest) (leaf : fragment.pattern = .leaf atom)
    (hyphen : (skipBlanks text).head? = some '-') :
    simple? (skipBlanks text) = some (fragment, rest) := by
  cases branched with
  | @choice _ left _ parts branches inOrder barred =>
    have branch : Fragment.pattern (.sequence parts) :: branches.map Fragment.pattern =
        [.leaf atom] := Pattern.choice_eq_leaf leaf
    obtain ⟨whole, others⟩ := List.cons.inj branch
    obtain rfl : branches = [] := List.map_eq_nil_iff.1 others
    have part : parts.map Fragment.pattern = [.leaf atom] := Pattern.sequence_eq_leaf whole
    obtain ⟨one, rfl, own⟩ := List.map_eq_singleton_iff.1 part
    rw [Fragment.sequence_singleton, Fragment.choice_singleton]
    cases barred with
    | none =>
      cases inOrder with
      | some first spaced =>
        cases spaced with
        | none => exact first atom own hyphen

/-- A usage line that begins with a hyphen after the name of the program and has a leaf for its
pattern is one simple expression. -/
theorem simple?_of_usageLine {line rest : List Char} {usage : Fragment} {atom : Atom}
    (read : usageLine line = .ok (usage, rest)) (leaf : usage.pattern = .leaf atom)
    (hyphen : (skipBlanks (skipProgram line)).head? = some '-') :
    ∃ left, simple? (skipBlanks (skipProgram line)) = some (usage, left) ∧
      skipBlanks left = rest := by
  obtain ⟨left, branched, same, -⟩ := usageLine_accepts bare_of_expressed read
  exact ⟨left, simple?_of_branched branched leaf hyphen, same.symm⟩

/-- A stack of one letter is read as a short option. -/
theorem shortOption?_of_stack? {text rest : List Char} {mention : Mention}
    (read : stack? text = some ([mention], rest)) : shortOption? text = some (mention, rest) := by
  unfold stack? at read
  split at read
  · next more =>
    have joined : more.takeWhile Char.isAlpha ++ more.dropWhile Char.isAlpha = more :=
      List.takeWhile_append_dropWhile
    have letters : ∀ c ∈ more.takeWhile Char.isAlpha, c.isAlpha = true :=
      List.all_eq_true.1 List.all_takeWhile
    generalize more.dropWhile Char.isAlpha = left at joined read
    dsimp only at read
    split at read
    · contradiction
    · next letter single =>
      rw [single] at joined letters
      have alpha : letter.isAlpha = true := letters letter List.mem_cons_self
      obtain ⟨same, rfl⟩ := Prod.mk.inj (Option.some.inj read)
      obtain rfl := (List.cons.inj same).1
      rw [← joined, List.singleton_append, shortOption?, if_pos alpha]
    · next several =>
      obtain ⟨same, rfl⟩ := Prod.mk.inj (Option.some.inj read)
      obtain ⟨letter, single, -⟩ := List.map_eq_singleton_iff.1 same
      exact absurd single (several letter)
  · contradiction

/-- What begins a stack does not begin a long option. -/
theorem longOption?_of_stack? {text : List Char} {found : List Mention × List Char}
    (read : stack? text = some found) : longOption? text = none := by
  unfold longOption?
  split
  · contradiction
  · rfl

/-- No other expression than an option begins with a hyphen. -/
theorem simple?_hyphen (text : List Char) :
    simple? ('-' :: text) = match stack? ('-' :: text) with
      | some (mentions, rest) => some (.ofMentions mentions, rest)
      | none => (longOption? ('-' :: text)).map fun found => (.ofMentions [found.1], found.2) := by
  have noWord : optionsWord? ('-' :: text) = none := optionsWord?_cons_eq_none (by decide)
  have noBracket : bracketed? ('-' :: text) = none := bracketed?_eq_none (by decide)
  have noName : Text.name? ('-' :: text) = none := rfl
  rw [simple?, noWord, noBracket, noName]
  cases stack? ('-' :: text) with
  | some found => rfl
  | none => cases longOption? ('-' :: text) <;> rfl

end Usage

end Synopsis

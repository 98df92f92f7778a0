import Synopsis.Proofs.Usage.Cut
import Synopsis.Proofs.Usage.Feed

/-!
# Expressions of changed texts

A change to texts that the readers for blanks, for simple expressions and for single marks see
through is one that the readers for expressions, sequences and alternatives see through: they read
the same of a changed text, and what is left of it is what is left of the text, changed.
-/
namespace Synopsis

/-- The same violation in a changed text. -/
def Fault.changed (f : List Char → List Char) (fault : Fault) : Fault :=
  match fault.cause with
  | .unexpected what _ => .expected what (f fault.rest)
  | cause => ⟨cause, f fault.rest⟩

namespace Usage

open Text

/-- The same result of a changed text. -/
def changed {α : Type} (f : List Char → List Char) :
    Except Fault (α × List Char) → Except Fault (α × List Char)
  | .ok (found, rest) => .ok (found, f rest)
  | .error fault => .error (fault.changed f)

/-- The same outcome for a changed text. -/
def Outcome.changed (f : List Char → List Char) : Outcome → Outcome
  | .accepted fragment rest => .accepted fragment (f rest)
  | .declined => .declined
  | .failed fault => .failed (fault.changed f)

/-- The characters that hold expressions together or apart. -/
def isMark (c : Char) : Bool := ['[', '(', '|', ']', ')', '.'].contains c

/-- The readers for the parts of expressions see through a change to texts. -/
structure Transparent (f : List Char → List Char) : Prop where
  /-- Blanks are skipped alike. -/
  skipBlanks : ∀ text, skipBlanks (f text) = f (skipBlanks text)
  /-- Blanks are read alike. -/
  blanks? : ∀ text, blanks? (f text) = (blanks? text).map f
  /-- Simple expressions are read alike. -/
  simple? : ∀ text, simple? (f text) = (simple? text).map (Prod.map id f)
  /-- Marks are read alike. -/
  mark : ∀ c, isMark c = true → ∀ text, after? [c] (f text) = (after? [c] text).map f
  /-- What is left of a text does not become longer than the text. -/
  length : ∀ {rest text}, rest <:+ text → (f rest).length ≤ (f text).length

/-- A change that keeps all words and treats the blanks between them alike is transparent. -/
theorem transparent_of_keeps {f : List Char → List Char} (words : Keeps Pauses f)
    (skipped : ∀ text, skipBlanks (f text) = f (skipBlanks text))
    (blank : ∀ text, blanks? (f text) = (blanks? text).map f)
    (length : ∀ {rest text}, rest <:+ text → (f rest).length ≤ (f text).length) :
    Transparent f where
  skipBlanks := skipped
  blanks? := blank
  simple? := simple?_keeps words
  mark c marked := by
    have marks : Unbroken isMark := by decide
    refine after?_keeps words fun pauses => (pauses.ends marks).mono fun d same => ?_
    rw [List.contains_cons, List.contains_nil, Bool.or_false, beq_iff_eq] at same
    rw [same, marked]
  length := length

/-- A change that keeps all lines is transparent. -/
theorem transparent_of_keepsLines {f : List Char → List Char} (keeps : KeepsLines f) :
    Transparent f :=
  transparent_of_keeps keeps.words (skipBlanks_keeps keeps) (blanks?_keeps keeps) keeps.length

/-- A first character is a word of one character. -/
theorem after?_cons (w : Char) (word text : List Char) :
    after? (w :: word) text = (after? [w] text).bind (after? word) := by
  cases text with
  | nil => rfl
  | cons c rest =>
    rw [after?, after?]
    split <;> rfl

/-- A text begins with a character exactly where that can be read. -/
theorem after?_singleton_iff {c : Char} {text rest : List Char} :
    after? [c] text = some rest ↔ text = c :: rest := after?_eq_some_iff

/-- Alternatives go on after a bar. -/
theorem moreBranches_succ (read : Reader) (bound : Nat) (text : List Char) :
    moreBranches read (bound + 1) text =
      match after? ['|'] (skipBlanks text) with
      | none => .ok ([], text)
      | some next =>
        match sequence read next with
        | .error fault => .error fault
        | .ok (branch, rest) =>
          match moreBranches read bound rest with
          | .error fault => .error fault
          | .ok (branches, last) => .ok (branch :: branches, last) := by
  rw [moreBranches]
  split
  · next bar =>
    rw [bar]
    rfl
  · next other =>
    cases bar : after? ['|'] (skipBlanks text) with
    | none => rfl
    | some next => exact absurd (after?_eq_some_iff.1 bar) (other next)

/-- Brackets end with their closing character. -/
theorem enclosed_eq (read : Reader) (bracket : Bracket) (text : List Char) :
    enclosed read bracket text =
      match alternatives read text with
      | .error fault => .failed fault
      | .ok (body, rest) =>
        match after? [bracket.closing] (skipBlanks rest) with
        | some last => .accepted (bracket.apply body) last
        | none => .failed (.expected bracket.expected (skipBlanks rest)) := by
  rw [enclosed]
  rcases alternatives read text with fault | ⟨body, rest⟩
  · rfl
  · dsimp only
    cases skipBlanks rest with
    | nil => rfl
    | cons c last =>
      by_cases closes : c = bracket.closing
      · simp [after?, closes]
      · simp [after?, closes, Ne.symm closes]

/-- An expression begins with an opening bracket or is a simple one. -/
theorem unit_eq (read : Reader) (text : List Char) :
    unit read text =
      match after? ['['] text, after? ['('] text with
      | some inside, _ => enclosed read .square inside
      | none, some inside => enclosed read .round inside
      | none, none =>
        match simple? text with
        | some (fragment, rest) => .accepted fragment rest
        | none => .declined := by
  unfold unit
  split
  · rfl
  · rfl
  · next noSquare noRound =>
    cases square : after? ['['] text with
    | some inside => exact absurd (after?_eq_some_iff.1 square) (noSquare inside)
    | none =>
      cases round : after? ['('] text with
      | some inside => exact absurd (after?_eq_some_iff.1 round) (noRound inside)
      | none => rfl

/-- An expression is repeated if three dots follow. -/
theorem withEllipsis_eq (fragment : Fragment) (rest : List Char) :
    withEllipsis fragment rest =
      match after? ['.', '.', '.'] (skipBlanks rest) with
      | some last => .accepted fragment.repeated last
      | none => .accepted fragment rest := by
  rw [withEllipsis]
  split
  · next last dots =>
    rw [dots]
    rfl
  · next other =>
    cases dots : after? ['.', '.', '.'] (skipBlanks rest) with
    | none => rfl
    | some last => exact absurd (after?_eq_some_iff.1 dots) (other last)

/-- Blanks advance in a text. -/
theorem blanks?_advances {text rest : List Char} (read : blanks? text = some rest) :
    Advances text rest := by
  cases text with
  | nil => contradiction
  | cons c more =>
    rw [blanks?] at read
    split at read
    · obtain rfl := Option.some.inj read
      exact advances_cons (List.dropWhile_suffix _)
    · contradiction

/-- A bar advances in a text. -/
theorem bar_advances {text rest : List Char} (bar : after? ['|'] (skipBlanks text) = some rest) :
    Advances text rest := by
  have skipped := skipBlanks_suffix text
  rw [after?_singleton_iff.1 bar] at skipped
  exact (advances_cons (List.suffix_refl rest)).of_suffix skipped

/-- Extents in which what is left ends the text. -/
abbrev remains : Extent := fun _ text rest => rest <:+ text

/-- What is left after an expression ends the text. -/
theorem expressionTo_remains (depth : Nat) : Reader.Accepts (expressionTo depth) remains := by
  intro text fragment rest read
  obtain ⟨pieces, cut, -⟩ := expressionTo_accepts covers_of_expressed depth read
  exact cut.joined ▸ List.suffix_append _ rest

/-- What is left after a sequence ends the text. -/
theorem remains_of_inOrder {parts : List Fragment} {text last : List Char}
    (ordered : InOrder remains parts text last) : last <:+ text := by
  have spaced : ∀ {fragments text last}, Spaced remains fragments text last → last <:+ text := by
    intro fragments text last spaced
    induction spaced with
    | none text => exact List.suffix_refl text
    | next blank one more ih => exact ih.trans (one.trans (blanks?_advances blank).suffix)
  cases ordered with
  | none => exact List.suffix_refl text
  | some one more => exact (spaced more).trans (one.trans (List.dropWhile_suffix _))

/-- What is left after alternatives ends the text. -/
theorem remains_of_branched {fragment : Fragment} {text last : List Char}
    (branched : Branched remains fragment text last) : last <:+ text := by
  have barred : ∀ {branches text last}, Barred remains branches text last → last <:+ text := by
    intro branches text last barred
    induction barred with
    | none text => exact List.suffix_refl text
    | next bar one more ih =>
      exact ih.trans ((remains_of_inOrder one).trans (bar_advances (after?_singleton_iff.2 bar)).suffix)
  cases branched with
  | choice one more => exact (barred more).trans (remains_of_inOrder one)

/-- What is left after reading a sequence ends the text. -/
theorem sequence_remains {read : Reader} (suffixes : read.Accepts remains)
    {text last : List Char} {fragment : Fragment}
    (done : sequence read text = .ok (fragment, last)) : last <:+ text := by
  obtain ⟨parts, -, ordered⟩ := sequence_accepts suffixes done
  exact remains_of_inOrder ordered

/-- A reader gives the same of what is left of a changed text as another one of what is left of the
text. -/
def Agrees (f : List Char → List Char) (read other : Reader) (text : List Char) : Prop :=
  ∀ rest, rest <:+ text → other (f rest) = (read rest).changed f

/-- Readers that agree on a text agree on what is left of it. -/
theorem Agrees.of_suffix {f : List Char → List Char} {read other : Reader} {text rest : List Char}
    (agrees : Agrees f read other text) (suffix : rest <:+ text) : Agrees f read other rest :=
  fun left more => agrees left (more.trans suffix)

/-- No expression follows where no blank does. -/
theorem moreExpressions_none (read : Reader) (bound : Nat) {text : List Char}
    (blank : blanks? text = none) : moreExpressions read bound text = .ok ([], text) := by
  cases bound with
  | zero => rfl
  | succ bound => rw [moreExpressions, blank]

/-- No branch follows where no bar does. -/
theorem moreBranches_none (read : Reader) (bound : Nat) {text : List Char}
    (bar : after? ['|'] (skipBlanks text) = none) :
    moreBranches read bound text = .ok ([], text) := by
  cases bound with
  | zero => rfl
  | succ bound => rw [moreBranches_succ, bar]

section Transparent

variable {f : List Char → List Char} (clear : Transparent f)

include clear

section Readers

variable {read other : Reader} (suffixes : read.Accepts remains)

include suffixes

/-- The expressions after the first one of a sequence are read alike. -/
theorem moreExpressions_changed {bound bound' : Nat} {text : List Char}
    (agrees : Agrees f read other text) (enough : text.length ≤ bound)
    (also : (f text).length ≤ bound') :
    moreExpressions other bound' (f text) = changed f (moreExpressions read bound text) := by
  induction bound generalizing bound' text with
  | zero =>
    obtain rfl := List.length_eq_zero_iff.1 (Nat.le_zero.1 enough)
    rw [moreExpressions_none other bound' (clear.blanks? [])]
    rfl
  | succ bound ih =>
    have blank' := clear.blanks? text
    cases blank : blanks? text with
    | none =>
      rw [blank] at blank'
      rw [moreExpressions_none other bound' blank', moreExpressions_none read _ blank]
      rfl
    | some next =>
      rw [blank] at blank'
      obtain ⟨suffix, shorter⟩ := blanks?_advances blank
      obtain ⟨-, shorter'⟩ := blanks?_advances blank'
      obtain ⟨bound', rfl⟩ : ∃ n, bound' = n + 1 := ⟨bound' - 1, by omega⟩
      rw [moreExpressions, moreExpressions, blank, blank']
      simp only [Option.map_some, agrees next suffix]
      cases one : read next with
      | declined => rfl
      | failed fault => rfl
      | accepted fragment rest =>
        have left := suffixes one
        have less := left.length_le
        have less' := clear.length left
        have more : moreExpressions other bound' (f rest) =
            changed f (moreExpressions read bound rest) :=
          ih (agrees.of_suffix (left.trans suffix)) (by omega) (by omega)
        simp only [Outcome.changed, more]
        cases moreExpressions read bound rest <;> rfl

/-- Sequences are read alike. -/
theorem sequence_changed {text : List Char} (agrees : Agrees f read other text) :
    sequence other (f text) = changed f (sequence read text) := by
  have skipped := skipBlanks_suffix text
  rw [sequence, sequence, clear.skipBlanks, agrees _ skipped]
  cases one : read (skipBlanks text) with
  | declined => rfl
  | failed fault => rfl
  | accepted fragment rest =>
    have more := moreExpressions_changed clear suffixes
      (agrees.of_suffix ((suffixes one).trans skipped)) (Nat.le_refl _) (Nat.le_refl _)
    simp only [Outcome.changed, more]
    cases moreExpressions read rest.length rest <;> rfl

/-- The branches after the first one are read alike. -/
theorem moreBranches_changed {bound bound' : Nat} {text : List Char}
    (agrees : Agrees f read other text) (enough : text.length ≤ bound)
    (also : (f text).length ≤ bound') :
    moreBranches other bound' (f text) = changed f (moreBranches read bound text) := by
  have bars : ∀ text, after? ['|'] (skipBlanks (f text)) =
      (after? ['|'] (skipBlanks text)).map f := by
    intro text
    rw [clear.skipBlanks, clear.mark '|' rfl]
  induction bound generalizing bound' text with
  | zero =>
    obtain rfl := List.length_eq_zero_iff.1 (Nat.le_zero.1 enough)
    rw [moreBranches_none other bound' (bars [])]
    rfl
  | succ bound ih =>
    have bar' := bars text
    cases bar : after? ['|'] (skipBlanks text) with
    | none =>
      rw [bar] at bar'
      rw [moreBranches_none other bound' bar', moreBranches_none read _ bar]
      rfl
    | some next =>
      rw [bar] at bar'
      obtain ⟨suffix, shorter⟩ := bar_advances bar
      obtain ⟨-, shorter'⟩ := bar_advances bar'
      obtain ⟨bound', rfl⟩ : ∃ n, bound' = n + 1 := ⟨bound' - 1, by omega⟩
      rw [moreBranches_succ, moreBranches_succ, bar, bar']
      simp only [Option.map_some, sequence_changed clear suffixes (agrees.of_suffix suffix)]
      cases one : sequence read next with
      | error fault => rfl
      | ok found =>
        obtain ⟨branch, rest⟩ := found
        have left := sequence_remains suffixes one
        have less := left.length_le
        have less' := clear.length left
        have more : moreBranches other bound' (f rest) =
            changed f (moreBranches read bound rest) :=
          ih (agrees.of_suffix (left.trans suffix)) (by omega) (by omega)
        simp only [changed, more]
        cases moreBranches read bound rest <;> rfl

/-- Alternatives are read alike. -/
theorem alternatives_changed {text : List Char} (agrees : Agrees f read other text) :
    alternatives other (f text) = changed f (alternatives read text) := by
  rw [alternatives, alternatives, sequence_changed clear suffixes agrees]
  cases branch : sequence read text with
  | error fault => rfl
  | ok found =>
    obtain ⟨fragment, rest⟩ := found
    have more := moreBranches_changed clear suffixes
      (agrees.of_suffix (sequence_remains suffixes branch)) (Nat.le_refl _) (Nat.le_refl _)
    simp only [changed, more]
    cases moreBranches read rest.length rest <;> rfl

/-- Alternatives in brackets are read alike. -/
theorem enclosed_changed (bracket : Bracket) {text : List Char}
    (agrees : Agrees f read other text) :
    enclosed other bracket (f text) = (enclosed read bracket text).changed f := by
  have isMark : isMark bracket.closing = true := by cases bracket <;> rfl
  rw [enclosed_eq, enclosed_eq, alternatives_changed clear suffixes agrees]
  cases alternatives read text with
  | error fault => rfl
  | ok found =>
    obtain ⟨body, rest⟩ := found
    simp only [changed, clear.skipBlanks, clear.mark _ isMark]
    cases after? [bracket.closing] (skipBlanks rest) <;> rfl

/-- Expressions before any ellipsis are read alike, if what is in their brackets is. -/
theorem unit_changed {text : List Char}
    (agrees : ∀ c inside, text = c :: inside → f text = c :: f inside →
      Agrees f read other inside) :
    unit other (f text) = (unit read text).changed f := by
  have inner : ∀ {c inside}, isMark c = true → after? [c] text = some inside →
      Agrees f read other inside := by
    intro c inside isMark found
    have found' := (clear.mark c isMark text).trans (congrArg _ found)
    exact agrees c inside (after?_singleton_iff.1 found) (after?_singleton_iff.1 found')
  rw [unit_eq, unit_eq, clear.mark '[' rfl, clear.mark '(' rfl]
  cases square : after? ['['] text with
  | some inside => exact enclosed_changed clear suffixes .square (inner rfl square)
  | none =>
    cases round : after? ['('] text with
    | some inside => exact enclosed_changed clear suffixes .round (inner rfl round)
    | none =>
      simp only [Option.map_none, clear.simple?]
      cases simple? text <;> rfl

end Readers

/-- Ellipses are read alike. -/
theorem withEllipsis_changed (fragment : Fragment) (rest : List Char) :
    withEllipsis fragment (f rest) = (withEllipsis fragment rest).changed f := by
  have dot := clear.mark '.' rfl
  have dots : ∀ text, after? ['.', '.', '.'] (f text) = (after? ['.', '.', '.'] text).map f := by
    intro text
    rw [after?_cons, after?_cons _ _ text, dot]
    cases after? ['.'] text with
    | none => rfl
    | some second =>
      rw [Option.map_some, Option.bind_some, Option.bind_some, after?_cons, after?_cons _ _ second,
        dot]
      cases after? ['.'] second with
      | none => rfl
      | some third => exact dot third
  rw [withEllipsis_eq, withEllipsis_eq, clear.skipBlanks, dots]
  cases after? ['.', '.', '.'] (skipBlanks rest) <;> rfl

/-- Expressions are read alike, if what is in their brackets is. -/
theorem expressionWith_changed {read other : Reader} (suffixes : read.Accepts remains)
    {text : List Char}
    (agrees : ∀ c inside, text = c :: inside → f text = c :: f inside →
      Agrees f read other inside) :
    expressionWith other (f text) = (expressionWith read text).changed f := by
  rw [expressionWith, expressionWith, unit_changed clear suffixes agrees]
  cases unit read text with
  | declined => rfl
  | failed fault => rfl
  | accepted fragment rest => exact withEllipsis_changed clear fragment rest

/-- Expressions are read alike with any bounds on the levels of brackets that are above the lengths
of the texts. -/
theorem expressionTo_changed {depth depth' : Nat} {text : List Char} (enough : text.length < depth)
    (also : (f text).length < depth') :
    expressionTo depth' (f text) = (expressionTo depth text).changed f := by
  induction depth generalizing depth' text with
  | zero => exact absurd enough (Nat.not_lt_zero _)
  | succ depth ih =>
    cases depth' with
    | zero => exact absurd also (Nat.not_lt_zero _)
    | succ depth' =>
      have inner : ∀ c inside, text = c :: inside → f text = c :: f inside →
          Agrees f (expressionTo depth) (expressionTo depth') inside := by
        intro c inside same same' rest suffix
        have less := suffix.length_le
        have less' := clear.length suffix
        rw [same, List.length_cons] at enough
        rw [same', List.length_cons] at also
        exact ih (by omega) (by omega)
      exact expressionWith_changed clear (expressionTo_remains depth) inner

/-- The alternatives of a line are read alike. -/
theorem lineAlternatives_changed (text : List Char) :
    lineAlternatives (f text) = changed f (lineAlternatives text) := by
  refine alternatives_changed clear (expressionTo_remains _) fun rest suffix => ?_
  have less := suffix.length_le
  have less' := clear.length suffix
  exact expressionTo_changed clear (by omega) (by omega)

end Transparent

end Usage

end Synopsis

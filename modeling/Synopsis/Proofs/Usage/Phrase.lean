import Synopsis.Proofs.Pattern.Canonical
import Synopsis.Proofs.Pattern.Replacement
import Synopsis.Proofs.Text.Front
import Synopsis.Usage.Expression

/-!
# Phrases

A phrase is what a usage line says in one place without brackets: an option, a stack of options, a
command, an argument, or the word for all described options. What is read as a simple expression is
one phrase. It goes on as far as its characters allow, and an option has a placeholder whenever one
comes next.
-/
namespace Synopsis.Usage

open Text
open Pattern (isCapitals)

/-- A placeholder with the sign that joins it to an option, before a text that is not part of it. A
word of capitals is only one where the text does not make it a longer name. -/
def IsValue (value after : List Char) : Prop :=
  ∃ sign body, value = sign :: body ∧ (sign = '=' ∨ sign = ' ') ∧
    ((∃ name, isName name = true ∧ body = '<' :: (name ++ ['>'])) ∨
      isCapitals body = true ∧ Ends isNameChar after)

/-- An option has a placeholder whenever one comes next. -/
def Joined (value after : List Char) : Prop :=
  IsValue value after ∨
    value = [] ∧ ∀ other rest, after = other ++ rest → ¬ IsValue other rest

/-- An expression without brackets around alternatives, as it is written. -/
inductive Phrase where
  /-- A hyphen and a letter, with the placeholder of a value or nothing. -/
  | short (letter : Char) (value : List Char)
  /-- A hyphen and several letters. -/
  | stack (letters : List Char)
  /-- Two hyphens and a name, with the placeholder of a value or nothing. -/
  | long (name value : List Char)
  /-- The word for all described options. -/
  | options
  /-- A name in angle brackets. -/
  | argument (name : List Char)
  /-- A name. -/
  | command (name : List Char)
deriving DecidableEq, Repr

namespace Phrase

/-- The characters of the phrase. -/
def text : Phrase → List Char
  | .short letter value => '-' :: letter :: value
  | .stack letters => '-' :: letters
  | .long name value => '-' :: '-' :: (name ++ value)
  | .options => optionsWord
  | .argument name => '<' :: (name ++ ['>'])
  | .command name => name

/-- The atoms that the phrase stands for: one for each letter of a stack, none for a placeholder. -/
def atoms : Phrase → List Atom
  | .short letter _ => [.short letter]
  | .stack letters => letters.map .short
  | .long name _ => [.long (String.ofList name)]
  | .options => [.options]
  | .argument name => [.argument (String.ofList name)]
  | .command name => [.command (String.ofList name)]

/-- The options that the phrase mentions, and whether each has a placeholder. -/
def mentions : Phrase → List Mention
  | .short letter value => [⟨.short letter, !value.isEmpty⟩]
  | .stack letters => letters.map fun letter => ⟨.short letter, false⟩
  | .long name value => [⟨.long (String.ofList name), !value.isEmpty⟩]
  | _ => []

/-- Every character belongs where it stands, no later one could be added, and an option has a
placeholder if one comes next. -/
def Fits : Phrase → List Char → Prop
  | .short letter value, after =>
    letter.isAlpha = true ∧ Ends Char.isAlpha (value ++ after) ∧ Joined value after
  | .stack letters, after =>
    2 ≤ letters.length ∧ (∀ letter ∈ letters, letter.isAlpha = true) ∧ Ends Char.isAlpha after
  | .long name value, after =>
    isName name = true ∧ Ends isNameChar (value ++ after) ∧ Joined value after
  | .options, after => Ends isNameChar after
  | .argument name, _ => isName name = true
  | .command name, after => isName name = true ∧ name ≠ optionsWord ∧ Ends isNameChar after

/-- The options that a phrase mentions are those among its atoms. -/
theorem option_mentions (phrase : Phrase) :
    phrase.mentions.map Mention.option = phrase.atoms.filter Atom.isOption := by
  cases phrase with
  | stack letters =>
    have options : ∀ atom ∈ letters.map Atom.short, atom.isOption = true :=
      List.forall_mem_map.2 fun letter _ => rfl
    rw [mentions, atoms, List.map_map, List.filter_eq_self.2 options]
    rfl
  | _ => rfl

end Phrase

/-- A name in angle brackets is read exactly where it stands at the front. -/
theorem bracketed?_eq_some_iff {text name rest : List Char} :
    bracketed? text = some (name, rest) ↔
      isName name = true ∧ text = '<' :: (name ++ '>' :: rest) := by
  constructor
  · intro read
    unfold bracketed? at read
    split at read
    · split at read
      · next found =>
        obtain ⟨rfl, rfl⟩ := Prod.mk.inj (Option.some.inj read)
        obtain ⟨named, rfl, -⟩ := name?_eq_some_iff.1 found
        exact ⟨named, rfl⟩
      · contradiction
    · contradiction
  · rintro ⟨named, rfl⟩
    have ends : Ends isNameChar ('>' :: rest) := ends_cons.2 rfl
    simp only [bracketed?, name?_eq_some_iff.2 ⟨named, rfl, ends⟩]

/-- A character of a word of capitals belongs to names. -/
theorem isNameChar_of_isCapitalChar {c : Char} (capital : isCapitalChar c = true) :
    isNameChar c = true := by
  have letter : c.isAlpha = (c.isUpper || c.isLower) := rfl
  simp only [isCapitalChar, Bool.or_eq_true, decide_eq_true_eq] at capital
  simp only [isNameChar, Char.isAlphanum, letter, Bool.or_eq_true, decide_eq_true_eq]
  tauto

/-- A word of capitals is read exactly where it stands at the front and is no part of a longer
name. -/
theorem capitals?_eq_some_iff {text rest : List Char} :
    capitals? text = some rest ↔
      ∃ word, text = word ++ rest ∧ isCapitals word = true ∧ Ends isNameChar rest := by
  constructor
  · intro read
    cases text with
    | nil => contradiction
    | cons c more =>
      rw [capitals?] at read
      split at read
      · next both =>
        obtain rfl := Option.some.inj read
        rw [Bool.and_eq_true, Bool.not_eq_true'] at both
        refine ⟨c :: more.takeWhile isCapitalChar, ?_, ?_, continuesName_eq_false.1 both.2⟩
        · rw [List.cons_append, List.takeWhile_append_dropWhile]
        · rw [isCapitals, both.1, Bool.true_and, List.all_takeWhile]
      · contradiction
  · rintro ⟨word, rfl, capital, ends⟩
    cases word with
    | nil => contradiction
    | cons c more =>
      rw [isCapitals, Bool.and_eq_true, List.all_eq_true] at capital
      have left : (more ++ rest).dropWhile isCapitalChar = rest :=
        dropWhile_word capital.2 (ends.mono fun _ => isNameChar_of_isCapitalChar)
      simp only [List.cons_append, capitals?, left, capital.1, continuesName_eq_false.2 ends,
        Bool.not_false, Bool.and_self, if_true]

/-- A placeholder is a name in angle brackets or a word of capitals. -/
theorem placeholder?_eq_some_iff {text rest : List Char} :
    placeholder? text = some rest ↔
      ∃ body, text = body ++ rest ∧
        ((∃ name, isName name = true ∧ body = '<' :: (name ++ ['>'])) ∨
          isCapitals body = true ∧ Ends isNameChar rest) := by
  constructor
  · intro read
    unfold placeholder? at read
    split at read
    · next name left found =>
      obtain rfl := Option.some.inj read
      obtain ⟨named, rfl⟩ := bracketed?_eq_some_iff.1 found
      exact ⟨'<' :: (name ++ ['>']), by simp, .inl ⟨name, named, rfl⟩⟩
    · obtain ⟨word, rfl, capital, ends⟩ := capitals?_eq_some_iff.1 read
      exact ⟨word, rfl, .inr ⟨capital, ends⟩⟩
  · rintro ⟨body, rfl, ⟨name, named, rfl⟩ | ⟨capital, ends⟩⟩
    · have found : bracketed? ('<' :: (name ++ ['>']) ++ rest) = some (name, rest) :=
        bracketed?_eq_some_iff.2 ⟨named, by simp⟩
      rw [placeholder?, found]
    · have first : bracketed? (body ++ rest) = none := by
        cases body with
        | nil => contradiction
        | cons c more =>
          -- an angle bracket is no capital letter
          cases found : bracketed? (c :: more ++ rest) with
          | none => rfl
          | some pair =>
            obtain ⟨-, same⟩ := bracketed?_eq_some_iff.1 found
            obtain ⟨rfl, -⟩ := List.cons.inj same
            contradiction
      rw [placeholder?, first, capitals?_eq_some_iff]
      exact ⟨body, rfl, capital, ends⟩

/-- A placeholder is read with the sign that joins it. -/
theorem value?_eq_some_iff {text rest : List Char} :
    value? text = some rest ↔ ∃ value, text = value ++ rest ∧ IsValue value rest := by
  constructor
  · intro read
    unfold value? at read
    split at read
    · obtain ⟨body, rfl, form⟩ := placeholder?_eq_some_iff.1 read
      exact ⟨'=' :: body, rfl, '=', body, rfl, .inl rfl, form⟩
    · obtain ⟨body, rfl, form⟩ := placeholder?_eq_some_iff.1 read
      exact ⟨' ' :: body, rfl, ' ', body, rfl, .inr rfl, form⟩
    · contradiction
  · rintro ⟨_, rfl, sign, body, rfl, rfl | rfl, form⟩ <;>
      exact placeholder?_eq_some_iff.2 ⟨body, rfl, form⟩

/-- An option is mentioned with the placeholder that comes next, if one does. -/
theorem exists_joined_mention (option : Atom) (text : List Char) :
    ∃ value, text = value ++ (mention option text).2 ∧ Joined value (mention option text).2 ∧
      (mention option text).1 = ⟨option, !value.isEmpty⟩ := by
  rw [mention]
  cases read : value? text with
  | some rest =>
    obtain ⟨value, rfl, form⟩ := value?_eq_some_iff.1 read
    refine ⟨value, rfl, .inl form, ?_⟩
    obtain ⟨sign, body, rfl, -⟩ := form
    rfl
  | none =>
    refine ⟨[], rfl, .inr ⟨rfl, fun other rest same form => ?_⟩, rfl⟩
    rw [value?_eq_some_iff.2 ⟨other, same, form⟩] at read
    contradiction

/-- The leaves of a written option are the options in it. -/
theorem leaves_ofMentions (found : List Mention) :
    (Fragment.ofMentions found).pattern.leaves = found.map Mention.option := by
  unfold Fragment.ofMentions
  split
  · rfl
  · rw [Pattern.leaves, ← Pattern.leaves_choice_leaf (found.map Mention.option), List.map_map]
    rfl

/-- A written option mentions the options in it. -/
theorem mentions_ofMentions (found : List Mention) :
    (Fragment.ofMentions found).mentions = found := by
  unfold Fragment.ofMentions
  split <;> rfl

/-- What is read as a stack is a short option or several letters. -/
theorem phrase_of_stack? {text rest : List Char} {found : List Mention}
    (read : stack? text = some (found, rest)) :
    ∃ phrase : Phrase, text = phrase.text ++ rest ∧ phrase.Fits rest ∧
      found.map Mention.option = phrase.atoms ∧ found = phrase.mentions := by
  unfold stack? at read
  split at read
  · next more =>
    have joined : more = more.takeWhile Char.isAlpha ++ more.dropWhile Char.isAlpha :=
      List.takeWhile_append_dropWhile.symm
    have letters : ∀ c ∈ more.takeWhile Char.isAlpha, c.isAlpha = true :=
      List.all_eq_true.1 List.all_takeWhile
    have ends := ends_dropWhile Char.isAlpha more
    dsimp only at read
    split at read
    · contradiction
    · next letter single =>
      obtain ⟨rfl, rfl⟩ := Prod.mk.inj (Option.some.inj read)
      rw [single] at joined letters
      obtain ⟨value, split, form, same⟩ :=
        exists_joined_mention (.short letter) (more.dropWhile Char.isAlpha)
      rw [split] at joined ends
      rw [same]
      exact ⟨.short letter value, congrArg ('-' :: ·) joined,
        ⟨letters letter List.mem_cons_self, ends, form⟩, rfl, rfl⟩
    · next some several =>
      obtain ⟨rfl, rfl⟩ := Prod.mk.inj (Option.some.inj read)
      have two : 2 ≤ (more.takeWhile Char.isAlpha).length := by
        match more.takeWhile Char.isAlpha, some, several with
        | [], some, _ => exact absurd rfl some
        | [letter], _, several => exact absurd rfl (several letter)
        | _ :: _ :: _, _, _ => exact Nat.le_add_left 2 _
      exact ⟨.stack (more.takeWhile Char.isAlpha), congrArg ('-' :: ·) joined,
        ⟨two, letters, ends⟩, List.map_map, rfl⟩
  · contradiction

/-- What is read as a long option is one. -/
theorem phrase_of_longOption? {text rest : List Char} {found : Mention}
    (read : longOption? text = some (found, rest)) :
    ∃ phrase : Phrase, text = phrase.text ++ rest ∧ phrase.Fits rest ∧
      [found.option] = phrase.atoms ∧ [found] = phrase.mentions := by
  unfold longOption? at read
  split at read
  · next more =>
    split at read
    · next name left named =>
      obtain ⟨isName, rfl, ends⟩ := name?_eq_some_iff.1 named
      obtain ⟨value, split, form, same⟩ := exists_joined_mention (.long (String.ofList name)) left
      rw [Option.some.inj read] at split form same
      dsimp only at split form same
      rw [split] at ends
      rw [same]
      refine ⟨.long name value, ?_, ⟨isName, ends, form⟩, rfl, rfl⟩
      rw [split, Phrase.text, List.cons_append, List.cons_append, List.append_assoc]
    · contradiction
  · contradiction

/-- What is read as a simple expression is a phrase, and stands for the atoms of the phrase. -/
theorem phrase_of_simple? {text rest : List Char} {fragment : Fragment}
    (read : simple? text = some (fragment, rest)) :
    ∃ phrase : Phrase, text = phrase.text ++ rest ∧ phrase.Fits rest ∧
      fragment.pattern.leaves = phrase.atoms ∧ fragment.mentions = phrase.mentions := by
  unfold simple? at read
  repeat' split at read
  · next found left stacked =>
    obtain ⟨rfl, rfl⟩ := Prod.mk.inj (Option.some.inj read)
    rw [mentions_ofMentions, leaves_ofMentions]
    exact phrase_of_stack? stacked
  · next found left long =>
    obtain ⟨rfl, rfl⟩ := Prod.mk.inj (Option.some.inj read)
    rw [mentions_ofMentions, leaves_ofMentions]
    exact phrase_of_longOption? long
  · next left word =>
    obtain ⟨rfl, rfl⟩ := Prod.mk.inj (Option.some.inj read)
    unfold optionsWord? at word
    split at word
    · next after found =>
      split at word
      · contradiction
      · next stops =>
        obtain rfl := Option.some.inj word
        exact ⟨.options, after?_eq_some_iff.1 found,
          continuesName_eq_false.1 (Bool.eq_false_iff.2 stops), rfl, rfl⟩
    · contradiction
  · next name left bracketed =>
    obtain ⟨rfl, rfl⟩ := Prod.mk.inj (Option.some.inj read)
    obtain ⟨named, rfl⟩ := bracketed?_eq_some_iff.1 bracketed
    exact ⟨.argument name, by simp [Phrase.text], named, rfl, rfl⟩
  · next noWord _ _ _ name left found =>
    obtain ⟨rfl, rfl⟩ := Prod.mk.inj (Option.some.inj read)
    obtain ⟨named, rfl, ends⟩ := name?_eq_some_iff.1 found
    refine ⟨.command name, rfl, ⟨named, ?_, ends⟩, rfl, rfl⟩
    rintro rfl
    unfold optionsWord? at noWord
    rw [after?_eq_some_iff.2 rfl] at noWord
    simp only [continuesName_eq_false.2 ends, Bool.false_eq_true, if_false] at noWord
    contradiction
  · contradiction

end Synopsis.Usage

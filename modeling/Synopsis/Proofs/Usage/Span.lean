import Synopsis.Proofs.Text.Span
import Synopsis.Proofs.Usage.Phrase

/-!
# Spans of options and names

Options, placeholders, arguments, commands and the word for all options are spans of a few
characters: those of names, angle brackets, the equals sign and the space. No bracket that holds
alternatives together, no bar and no line break is among them.
-/
namespace Synopsis.Usage

open Text

/-- A character of a name, of a name in angle brackets, or one that joins a placeholder to an
option. -/
def isPhraseChar (c : Char) : Bool := isNameChar c || ['<', '>', '=', ' '].contains c

/-- No line break is in a phrase. -/
theorem inline_isPhraseChar : Inline isPhraseChar := by decide

/-- The characters of names are characters of phrases. -/
theorem isPhraseChar_of_isNameChar {c : Char} (member : isNameChar c = true) :
    isPhraseChar c = true := by
  rw [isPhraseChar, member, Bool.true_or]

/-- Letters are characters of phrases. -/
theorem isPhraseChar_of_isAlpha {c : Char} (letter : c.isAlpha = true) : isPhraseChar c = true :=
  isPhraseChar_of_isNameChar (isNameChar_of_isAlpha letter)

section Readers

variable {text rest : List Char}

/-- A name is a span. -/
theorem spans_name? {name : List Char} (read : name? text = some (name, rest)) :
    Spans isPhraseChar text rest :=
  (spans_of_name? read).mono fun _ => isPhraseChar_of_isNameChar

/-- A name in angle brackets is a span. -/
theorem spans_bracketed? {name : List Char} (read : bracketed? text = some (name, rest)) :
    Spans isPhraseChar text rest := by
  unfold bracketed? at read
  split at read
  · split at read
    · next found =>
      obtain ⟨rfl, rfl⟩ := Prod.mk.inj (Option.some.inj read)
      exact .cons rfl ((spans_name? found).trans (.cons rfl (spans_refl _)))
    · contradiction
  · contradiction

/-- A word of capitals is a span. -/
theorem spans_capitals? (read : capitals? text = some rest) : Spans isPhraseChar text rest := by
  cases text with
  | nil => contradiction
  | cons c more =>
    rw [capitals?] at read
    split at read
    · next both =>
      obtain rfl := Option.some.inj read
      have first : isCapitalChar c = true := by
        rw [isCapitalChar, (Bool.and_eq_true_iff.1 both).1, Bool.true_or, Bool.true_or,
          Bool.true_or]
      exact (Spans.cons first (spans_dropWhile isCapitalChar more)).mono fun _ capital =>
        isPhraseChar_of_isNameChar (isNameChar_of_isCapitalChar capital)
    · contradiction

/-- A placeholder is a span. -/
theorem spans_placeholder? (read : placeholder? text = some rest) :
    Spans isPhraseChar text rest := by
  unfold placeholder? at read
  split at read
  · next found =>
    obtain rfl := Option.some.inj read
    exact spans_bracketed? found
  · exact spans_capitals? read

/-- A placeholder is a span with the sign that joins it. -/
theorem spans_value? (read : value? text = some rest) : Spans isPhraseChar text rest := by
  unfold value? at read
  split at read
  · exact .cons rfl (spans_placeholder? read)
  · exact .cons rfl (spans_placeholder? read)
  · contradiction

/-- What follows an option as its placeholder is a span. -/
theorem spans_mention (option : Atom) (text : List Char) :
    Spans isPhraseChar text (mention option text).2 := by
  unfold mention
  split
  · next read => exact spans_value? read
  · exact spans_refl text

/-- An option written with its name is a span. -/
theorem spans_longOption? {found : Mention} (read : longOption? text = some (found, rest)) :
    Spans isPhraseChar text rest := by
  unfold longOption? at read
  split at read
  · split at read
    · next name left named =>
      have joined := spans_mention (.long (String.ofList name)) left
      rw [Option.some.inj read] at joined
      exact .cons rfl (.cons rfl ((spans_name? named).trans joined))
    · contradiction
  · contradiction

/-- An option written with its letter is a span. -/
theorem spans_shortOption? {found : Mention} (read : shortOption? text = some (found, rest)) :
    Spans isPhraseChar text rest := by
  unfold shortOption? at read
  split at read
  · next letter left =>
    split at read
    · next isLetter =>
      have joined := spans_mention (.short letter) left
      rw [Option.some.inj read] at joined
      exact .cons rfl (.cons (isPhraseChar_of_isAlpha isLetter) joined)
    · contradiction
  · contradiction

/-- A stack of letters is a span, and so is the placeholder after a single one. -/
theorem spans_stack? {found : List Mention} (read : stack? text = some (found, rest)) :
    Spans isPhraseChar text rest := by
  unfold stack? at read
  split at read
  · next more =>
    have letters := (spans_dropWhile Char.isAlpha more).mono fun _ => isPhraseChar_of_isAlpha
    dsimp only at read
    split at read
    · contradiction
    · next letter single =>
      obtain ⟨-, rfl⟩ := Prod.mk.inj (Option.some.inj read)
      exact .cons rfl (letters.trans (spans_mention (.short letter) _))
    · obtain ⟨-, rfl⟩ := Prod.mk.inj (Option.some.inj read)
      exact .cons rfl letters
  · contradiction

/-- The word for all described options is a span. -/
theorem spans_optionsWord? (read : optionsWord? text = some rest) :
    Spans isPhraseChar text rest := by
  unfold optionsWord? at read
  split at read
  · next left word =>
    split at read
    · contradiction
    · obtain rfl := Option.some.inj read
      rw [after?_eq_some_iff.1 word]
      exact spans_append (List.all_eq_true.1 rfl) left
  · contradiction

/-- An expression without brackets around alternatives is a span. -/
theorem spans_simple? {fragment : Fragment} (read : simple? text = some (fragment, rest)) :
    Spans isPhraseChar text rest := by
  unfold simple? at read
  repeat' split at read
  · next found =>
    obtain ⟨-, rfl⟩ := Prod.mk.inj (Option.some.inj read)
    exact spans_stack? found
  · next found =>
    obtain ⟨-, rfl⟩ := Prod.mk.inj (Option.some.inj read)
    exact spans_longOption? found
  · next found =>
    obtain ⟨-, rfl⟩ := Prod.mk.inj (Option.some.inj read)
    exact spans_optionsWord? found
  · next found =>
    obtain ⟨-, rfl⟩ := Prod.mk.inj (Option.some.inj read)
    exact spans_bracketed? found
  · next found =>
    obtain ⟨-, rfl⟩ := Prod.mk.inj (Option.some.inj read)
    exact spans_name? found
  · contradiction

end Readers

end Synopsis.Usage

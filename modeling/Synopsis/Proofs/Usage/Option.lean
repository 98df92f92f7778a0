import Synopsis.Proofs.Pattern.Spelling
import Synopsis.Usage.Expression

/-!
# Reading single words

A spelled atom followed by a text that does not continue it is read as that atom. The ordered
readers for stacks, long options, the placeholder word, arguments and commands do not interfere,
since the first characters of a spelling decide between them.
-/
namespace Synopsis.Usage

open Text

/-- An option without a placeholder after it leaves all of the text. -/
theorem mention_plain {option : Atom} {text : List Char} (plain : value? text = none) :
    mention option text = (⟨option, false⟩, text) := by
  rw [mention, plain]

/-- A hyphen and a letter that no further letter follows are one short option. -/
theorem stack?_short {letter : Char} {rest : List Char} (isLetter : letter.isAlpha = true)
    (ends : Ends isNameChar rest) (plain : value? rest = none) :
    stack? ('-' :: letter :: rest) = some ([⟨.short letter, false⟩], rest) := by
  have single : ∀ c ∈ [letter], c.isAlpha = true := by
    simpa only [List.forall_mem_singleton] using isLetter
  have stops := ends.mono fun c => isNameChar_of_isAlpha (c := c)
  have taken : (letter :: rest).takeWhile Char.isAlpha = [letter] := takeWhile_word single stops
  have left : (letter :: rest).dropWhile Char.isAlpha = rest := dropWhile_word single stops
  simp only [stack?, taken, left, mention_plain plain]

/-- Two hyphens begin no stack. -/
theorem stack?_hyphens (text : List Char) : stack? ('-' :: '-' :: text) = none := rfl

/-- Only a hyphen begins a stack. -/
theorem stack?_eq_none {c : Char} {text : List Char} (other : c ≠ '-') :
    stack? (c :: text) = none := by
  unfold stack?
  split
  · next begins => exact absurd (List.cons.inj begins).1 other
  · rfl

/-- Two hyphens and a name that does not run on are one long option. -/
theorem longOption?_long {name rest : List Char} (named : isName name = true)
    (ends : Ends isNameChar rest) (plain : value? rest = none) :
    longOption? ('-' :: '-' :: (name ++ rest)) =
      some (⟨.long (String.ofList name), false⟩, rest) := by
  simp only [longOption?, name?_append named (continuesName_eq_false.2 ends),
    mention_plain plain]

/-- Only a hyphen begins a long option. -/
theorem longOption?_eq_none {c : Char} {text : List Char} (other : c ≠ '-') :
    longOption? (c :: text) = none := by
  unfold longOption?
  split
  · next begins => exact absurd (List.cons.inj begins).1 other
  · rfl

/-- A name in angle brackets is read whole. -/
theorem bracketed?_argument {name rest : List Char} (named : isName name = true) :
    bracketed? ('<' :: (name ++ '>' :: rest)) = some (name, rest) := by
  have stops : continuesName ('>' :: rest) = false := rfl
  simp only [bracketed?, name?_append named stops]

/-- Only an angle bracket begins a bracketed name. -/
theorem bracketed?_eq_none {c : Char} {text : List Char} (other : c ≠ '<') :
    bracketed? (c :: text) = none := by
  unfold bracketed?
  split
  · next begins => exact absurd (List.cons.inj begins).1 other
  · rfl

/-- A name is the word for all options, or it does not begin a text with that word. -/
theorem optionsWord?_eq_none {name rest : List Char} (named : isName name = true)
    (other : name ≠ optionsWord) (ends : Ends isNameChar rest) :
    optionsWord? (name ++ rest) = none := by
  unfold optionsWord?
  split
  · next left found =>
    split
    · rfl
    · next stops =>
      have split := after?_eq_some_iff.1 found
      have read := name?_append named (continuesName_eq_false.2 ends)
      have word : isName optionsWord = true := by decide
      rw [split, name?_append word (Bool.eq_false_iff.2 stops)] at read
      simp only [Option.some.injEq, Prod.mk.injEq] at read
      exact absurd read.1.symm other
  · rfl

/-- The word for all options begins with a small letter. -/
theorem optionsWord?_cons_eq_none {c : Char} {text : List Char} (other : c ≠ 'o') :
    optionsWord? (c :: text) = none := by
  rw [optionsWord?, optionsWord, after?, if_neg other.symm]

/-- A name that is no word of capitals goes on with another name character after them. -/
theorem continuesName_dropCapitals {name rest : List Char}
    (inside : ∀ c ∈ name, isNameChar c = true) (other : name.all isCapitalChar = false) :
    continuesName ((name ++ rest).dropWhile isCapitalChar) = true := by
  induction name with
  | nil => exact absurd other (by decide)
  | cons c more ih =>
    have ⟨first, later⟩ := List.forall_mem_cons.1 inside
    rw [List.cons_append, List.dropWhile_cons]
    split
    · next capital =>
      rw [List.all_cons, capital, Bool.true_and] at other
      exact ih later other
    · rw [continuesName, first]

/-- A name that is no word of capitals begins no placeholder. -/
theorem placeholder?_name {name rest : List Char} (named : isName name = true)
    (other : Pattern.isCapitals name = false) : placeholder? (name ++ rest) = none := by
  obtain ⟨c, more, rfl, plain, inside⟩ := exists_first_of_isName named
  have noBracket : c ≠ '<' := by rintro rfl; exact absurd plain (by decide)
  rw [List.cons_append, placeholder?, bracketed?_eq_none noBracket]
  by_cases capital : c.isUpper = true
  · rw [Pattern.isCapitals, capital, Bool.true_and] at other
    simp only [capitals?, continuesName_dropCapitals inside other, Bool.not_true, Bool.and_false,
      Bool.false_eq_true, if_false]
  · simp only [capitals?, capital, Bool.false_and, Bool.false_eq_true, if_false]

/-- Only an angle bracket or a capital letter begins a placeholder. -/
theorem placeholder?_eq_none {c : Char} {text : List Char} (noBracket : c ≠ '<')
    (noCapital : c.isUpper = false) : placeholder? (c :: text) = none := by
  rw [placeholder?, bracketed?_eq_none noBracket]
  simp only [capitals?, noCapital, Bool.false_and, Bool.false_eq_true, if_false]

/-- Only an equals sign or a space joins a placeholder to an option. -/
theorem value?_eq_none {c : Char} {text : List Char} (noEquals : c ≠ '=') (noSpace : c ≠ ' ') :
    value? (c :: text) = none := by
  unfold value?
  split
  · next begins => exact absurd (List.cons.inj begins).1 noEquals
  · next begins => exact absurd (List.cons.inj begins).1 noSpace
  · rfl

/-- No word begins with a character that is no letter, digit, hyphen or angle bracket. -/
theorem simple?_eq_none {c : Char} {text : List Char} (noHyphen : c ≠ '-') (noBracket : c ≠ '<')
    (noName : c.isAlphanum = false) : simple? (c :: text) = none := by
  have noWord : c ≠ 'o' := by rintro rfl; exact absurd noName (by decide)
  have noCommand : name? (c :: text) = none := by
    rw [name?, noName, if_neg Bool.false_ne_true]
  rw [simple?, stack?_eq_none noHyphen, longOption?_eq_none noHyphen,
    optionsWord?_cons_eq_none noWord, bracketed?_eq_none noBracket, noCommand]

/-- A text that begins with none of the characters of an expression is declined. -/
theorem unit_eq_declined {read : Reader} {c : Char} {text : List Char}
    (other : Pattern.beginsSpelling c = false) : unit read (c :: text) = .declined := by
  simp only [Pattern.beginsSpelling, Bool.or_eq_false_iff, decide_eq_false_iff_not] at other
  obtain ⟨⟨⟨⟨noName, noHyphen⟩, noBracket⟩, noSquare⟩, noRound⟩ := other
  unfold unit
  split
  · next begins => exact absurd (List.cons.inj begins).1 noSquare
  · next begins => exact absurd (List.cons.inj begins).1 noRound
  · rw [simple?_eq_none noHyphen noBracket noName]

/-- A word at the front of a text is read as an expression. -/
theorem unit_eq_accepted {read : Reader} {text rest : List Char} {fragment : Fragment}
    (found : simple? text = some (fragment, rest)) :
    unit read text = .accepted fragment rest := by
  unfold unit
  split
  · rw [simple?_eq_none (by decide) (by decide) (by decide)] at found
    contradiction
  · rw [simple?_eq_none (by decide) (by decide) (by decide)] at found
    contradiction
  · rw [found]

end Synopsis.Usage

import Synopsis.Proofs.Text.Feed
import Synopsis.Usage.Expression

/-!
# Options within a line

An option is read with its placeholder from the front of a text, but never past the end of a line,
a tab, or a space with another blank after it. So what is read, and how far, is the same after a
change to the text that keeps its words.
-/
namespace Synopsis.Usage

open Text

/-- A name in angle brackets is a name and the bracket that closes. -/
theorem bracketed?_cons (text : List Char) :
    bracketed? ('<' :: text) =
      (name? text).bind fun found => (after? ['>'] found.2).map (found.1, ·) := by
  rw [bracketed?]
  rcases name? text with _ | ⟨name, _ | ⟨c, rest⟩⟩
  · rfl
  · rfl
  · by_cases closing : c = '>'
    · subst closing
      rfl
    · simp [after?, closing, Ne.symm closing]

section Words

variable {f : List Char → List Char} (keeps : Keeps Pauses f)

include keeps

/-- A name in angle brackets is read alike. -/
theorem bracketed?_keeps : ∀ text, bracketed? (f text) = (bracketed? text).map (Prod.map id f) := by
  refine keeps.reads (fun pauses => by cases pauses <;> rfl) fun c rest => ?_
  by_cases opening : c = '<'
  · subst opening
    have closing : ∀ left, after? ['>'] (f left) = (after? ['>'] left).map f :=
      after?_keeps keeps (·.ends (by decide))
    rw [bracketed?_cons, bracketed?_cons, name?_keeps keeps]
    cases name? rest with
    | none => rfl
    | some found =>
      simp only [Option.map_some, Option.bind_some, Prod.map, closing]
      cases after? ['>'] found.2 <;> rfl
  · simp [bracketed?, opening]

/-- A word of capitals is read alike. -/
theorem capitals?_keeps : ∀ text, capitals? (f text) = (capitals? text).map f := by
  refine keeps.reads (fun pauses => by cases pauses <;> rfl) fun c rest => ?_
  rw [capitals?, capitals?, dropWhile_keeps keeps (·.ends (by decide)), continuesName_keeps keeps]
  split <;> rfl

/-- A placeholder is read alike. -/
theorem placeholder?_keeps (text : List Char) :
    placeholder? (f text) = (placeholder? text).map f := by
  rw [placeholder?, placeholder?, bracketed?_keeps keeps]
  cases bracketed? text with
  | none => exact capitals?_keeps keeps text
  | some found => rfl

/-- A placeholder is read alike with the sign that joins it. -/
theorem value?_keeps : ∀ text, value? (f text) = (value? text).map f := by
  refine keeps.reads (fun pauses => by cases pauses <;> rfl) fun c rest => ?_
  by_cases equals : c = '='
  · subst equals
    exact placeholder?_keeps keeps rest
  · by_cases space : c = ' '
    · subst space
      exact placeholder?_keeps keeps rest
    · simp [value?, equals, space]

/-- An option is mentioned alike with its placeholder. -/
theorem mention_keeps (option : Atom) (text : List Char) :
    mention option (f text) = (mention option text).map id f := by
  rw [mention, mention, value?_keeps keeps]
  cases value? text <;> rfl

/-- A long option is read alike. -/
theorem longOption?_keeps :
    ∀ text, longOption? (f text) = (longOption? text).map (Prod.map id f) := by
  refine keeps.reads (fun pauses => by cases pauses <;> rfl) fun c rest => ?_
  by_cases dash : c = '-'
  · subst dash
    rcases keeps rest with ⟨pauses, same⟩ | ⟨d, more, rfl, same⟩
    · have none : ∀ {left}, Pauses left → longOption? ('-' :: left) = none := by
        intro left pauses
        cases pauses <;> rfl
      rw [none pauses, none same, Option.map_none]
    · rw [same]
      by_cases second : d = '-'
      · subst second
        rw [longOption?, longOption?, name?_keeps keeps]
        cases name? more with
        | none => rfl
        | some found => exact congrArg some (mention_keeps keeps _ _)
      · simp [longOption?, second]
  · simp [longOption?, dash]

/-- A short option is read alike. -/
theorem shortOption?_keeps :
    ∀ text, shortOption? (f text) = (shortOption? text).map (Prod.map id f) := by
  refine keeps.reads (fun pauses => by cases pauses <;> rfl) fun c rest => ?_
  by_cases dash : c = '-'
  · subst dash
    rcases keeps rest with ⟨pauses, same⟩ | ⟨letter, more, rfl, same⟩
    · have none : ∀ {left}, Pauses left → shortOption? ('-' :: left) = none := by
        intro left pauses
        cases pauses <;> rfl
      rw [none pauses, none same, Option.map_none]
    · rw [same, shortOption?, shortOption?, mention_keeps keeps]
      split <;> rfl
  · simp [shortOption?, dash]

/-- A stack of letters is read alike, and so is the placeholder after a single one. -/
theorem stack?_keeps : ∀ text, stack? (f text) = (stack? text).map (Prod.map id f) := by
  refine keeps.reads (fun pauses => by cases pauses <;> rfl) fun c rest => ?_
  by_cases dash : c = '-'
  · subst dash
    rw [stack?, stack?, takeWhile_keeps keeps (·.ends (by decide)),
      dropWhile_keeps keeps (·.ends (by decide))]
    dsimp only
    split
    · rfl
    · rw [mention_keeps keeps]
      rfl
    · rfl
  · simp [stack?, dash]

/-- The word for all described options is read alike. -/
theorem optionsWord?_keeps (text : List Char) :
    optionsWord? (f text) = (optionsWord? text).map f := by
  rw [optionsWord?, optionsWord?, after?_keeps keeps (·.ends (by decide))]
  cases after? optionsWord text with
  | none => rfl
  | some rest =>
    rw [Option.map_some]
    dsimp only
    rw [continuesName_keeps keeps]
    split <;> rfl

/-- An expression without brackets around alternatives is read alike. -/
theorem simple?_keeps (text : List Char) :
    simple? (f text) = (simple? text).map (Prod.map id f) := by
  rw [simple?, simple?, stack?_keeps keeps, longOption?_keeps keeps, optionsWord?_keeps keeps,
    bracketed?_keeps keeps, name?_keeps keeps]
  cases stack? text with
  | some found => rfl
  | none =>
    cases longOption? text with
    | some found => rfl
    | none =>
      cases optionsWord? text with
      | some rest => rfl
      | none =>
        cases bracketed? text with
        | some found => rfl
        | none => cases name? text <;> rfl

end Words

end Synopsis.Usage

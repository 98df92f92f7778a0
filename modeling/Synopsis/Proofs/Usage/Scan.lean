import Synopsis.Proofs.Usage.Transparent

/-!
# Scanning

A scanner goes through a text from place to place and notes the options that it meets. Where it
declines, it has to go back to the place where it began, over whatever it has read by then. The
scanners here are those of names, placeholders, options and words, each with the places it goes back
to written out. They give what the readers give, from what is left of the text.
-/
namespace Synopsis.Usage

open Text

/-- A place in a text, and what has been noted on the way to it. -/
structure Scan where
  /-- What is left of the text. -/
  rest : List Char
  /-- The options met so far, and whether any mention of each had a placeholder. -/
  noted : Catalog

/-- A program that moves a scan and may stop at a fault. -/
abbrev Scanner := StateT Scan (Except Fault)

namespace Scan

/-- The scan at another place. -/
def moved (scan : Scan) (rest : List Char) : Scan := { scan with rest }

/-- The scan with some mentions noted. -/
def noting (scan : Scan) (mentions : List Mention) : Scan :=
  { scan with noted := mentions.foldl Catalog.mention scan.noted }

/-- What has been read is given, and the scan is after it, or it is where it was. -/
def follow {α : Type} (scan : Scan) : Option (α × List Char) → Option α × Scan
  | some (found, rest) => (some found, scan.moved rest)
  | none => (none, scan)

/-- Something has been read, and the scan is after it, or it is where it was. -/
def followed (scan : Scan) : Option (List Char) → Bool × Scan
  | some rest => (true, scan.moved rest)
  | none => (false, scan)

/-- The options of a stack have been read and noted, and the scan is after them, or it is where it
was. -/
def stacked (scan : Scan) : Option (List Mention × List Char) → Option (Pattern Atom) × Scan
  | some (mentions, rest) =>
    (some (Fragment.ofMentions mentions).pattern, (scan.noting mentions).moved rest)
  | none => (none, scan)

section Fields

variable (scan : Scan) (rest : List Char) (mentions : List Mention)

/-- A scan that is moved is at the new place. -/
@[simp] theorem moved_rest : (scan.moved rest).rest = rest := rfl

/-- Only the last place counts. -/
@[simp] theorem moved_moved (last : List Char) : (scan.moved rest).moved last = scan.moved last :=
  rfl

/-- Staying at a place is no move. -/
@[simp] theorem moved_self : scan.moved scan.rest = scan := rfl

/-- Noting mentions is no move. -/
@[simp] theorem noting_rest : (scan.noting mentions).rest = scan.rest := rfl

/-- What is noted does not depend on the place. -/
@[simp] theorem noting_moved :
    (scan.moved rest).noting mentions = (scan.noting mentions).moved rest := rfl

/-- No mentions change nothing. -/
@[simp] theorem noting_nil : scan.noting [] = scan := rfl

/-- Mentions are noted one after the other. -/
@[simp] theorem noting_noting (later : List Mention) :
    (scan.noting mentions).noting later = scan.noting (mentions ++ later) := by
  simp only [noting, List.foldl_append]

end Fields

end Scan

namespace Scanner

/-- What is left of the text. -/
def place : Scanner (List Char) := do return (← get).rest

/-- Go to a place. What has been noted stays noted. -/
def moveTo (rest : List Char) : Scanner PUnit := modify (·.moved rest)

/-- Note a mention. -/
def note (found : Mention) : Scanner PUnit := modify (·.noting [found])

/-- Whether a character of a class comes next. -/
def sees (inside : Char → Bool) : Scanner Bool := do return (← place).head?.any inside

/-- Read a word, if it comes next. -/
def eatWord (word : List Char) : Scanner Bool := do
  match after? word (← place) with
  | some rest =>
    moveTo rest
    return true
  | none => return false

/-- Read a character, if it comes next. -/
def eat (c : Char) : Scanner Bool := eatWord [c]

/-- Read all characters of a class that come next. -/
def eatWhile (inside : Char → Bool) : Scanner (List Char) := do
  let text ← place
  moveTo (text.dropWhile inside)
  return text.takeWhile inside

/-- Read all blanks that come next, and say whether there are any. -/
def skip : Scanner Bool := do return !(← eatWhile isBlank).isEmpty

/-- A name. -/
def name : Scanner (Option (List Char)) := do
  if ← sees Char.isAlphanum then
    return some (← eatWhile isNameChar)
  return none

/-- A name in angle brackets. -/
def argument : Scanner (Option (List Char)) := do
  let saved ← place
  if ← eat '<' then
    if let some found ← name then
      if ← eat '>' then
        return some found
  moveTo saved
  return none

/-- A placeholder: a name in angle brackets, or a word of capitals that does not run on. -/
def placeholder : Scanner Bool := do
  if (← argument).isSome then
    return true
  let saved ← place
  if !(← sees Char.isUpper) then
    return false
  let _ ← eatWhile isCapitalChar
  if ← sees isNameChar then
    moveTo saved
    return false
  return true

/-- A placeholder with the sign that joins it to what comes before. -/
def value : Scanner Bool := do
  let saved ← place
  let joined ← if ← eat '=' then pure true else eat ' '
  if joined then
    if ← placeholder then
      return true
  moveTo saved
  return false

/-- A word where no longer name begins. -/
def keyword (word : List Char) : Scanner Bool := do
  let saved ← place
  if ← eatWord word then
    if !(← sees isNameChar) then
      return true
  moveTo saved
  return false

/-- An option written with its letter. -/
def shortOption : Scanner (Option Mention) := do
  let saved ← place
  if !(← eat '-') then
    return none
  match ← place with
  | letter :: rest =>
    if letter.isAlpha then
      moveTo rest
      return some ⟨.short letter, ← value⟩
  | [] => pure ()
  moveTo saved
  return none

/-- An option written with its name. -/
def longOption : Scanner (Option Mention) := do
  let saved ← place
  if !(← eatWord ['-', '-']) then
    return none
  match ← name with
  | some found => return some ⟨.long (String.ofList found), ← value⟩
  | none =>
    moveTo saved
    return none

/-- A hyphen and one or more letters, noted as options. Only a single letter may have a placeholder
after it. -/
def stack : Scanner (Option (Pattern Atom)) := do
  let saved ← place
  if !(← eat '-') then
    return none
  match ← eatWhile Char.isAlpha with
  | [] =>
    moveTo saved
    return none
  | [letter] =>
    note ⟨.short letter, ← value⟩
    return some (.leaf (.short letter))
  | letters =>
    letters.forM fun letter => note ⟨.short letter, false⟩
    return some (.rep (.choice (letters.map fun letter => .leaf (.short letter))))

end Scanner

/-- A word at the front of a text, where no longer name begins. -/
def keyword? (word text : List Char) : Option (List Char) :=
  (after? word text).filter fun rest => !continuesName rest

section FirstWords

variable (text : List Char)

/-- The word for all described options is read as any other word. -/
theorem optionsWord?_eq : optionsWord? text = keyword? optionsWord text := by
  rw [optionsWord?, keyword?]
  cases after? optionsWord text with
  | none => rfl
  | some rest =>
    dsimp only
    rw [Option.filter_some]
    cases continuesName rest <;> rfl

/-- A name in angle brackets is read one part after the other. -/
theorem bracketed?_eq_bind :
    bracketed? text = (after? ['<'] text).bind fun inside =>
      (name? inside).bind fun found => (after? ['>'] found.2).map (found.1, ·) := by
  cases opening : after? ['<'] text with
  | some inside =>
    rw [after?_singleton_iff.1 opening, bracketed?_cons]
    rfl
  | none =>
    unfold bracketed?
    split
    · simp [after?] at opening
    · rfl

/-- A word of capitals begins with one and ends where no name goes on. -/
theorem capitals?_eq :
    capitals? text =
      if text.head?.any Char.isUpper then
        if continuesName (text.dropWhile isCapitalChar) then none
        else some (text.dropWhile isCapitalChar)
      else none := by
  cases text with
  | nil => rfl
  | cons c rest =>
    by_cases upper : c.isUpper = true
    · have first : isCapitalChar c = true := by
        rw [isCapitalChar, upper, Bool.true_or, Bool.true_or, Bool.true_or]
      simp only [capitals?, upper, List.head?_cons, Option.any_some, List.dropWhile_cons, first,
        if_true, Bool.true_and]
      cases continuesName (rest.dropWhile isCapitalChar) <;> rfl
    · simp [capitals?, upper]

/-- A placeholder is read after the sign that joins it. -/
theorem value?_eq :
    value? text =
      match after? ['='] text, after? [' '] text with
      | some rest, _ => placeholder? rest
      | none, some rest => placeholder? rest
      | none, none => none := by
  cases equals : after? ['='] text with
  | some rest => rw [after?_singleton_iff.1 equals, value?]
  | none =>
    cases space : after? [' '] text with
    | some rest => rw [after?_singleton_iff.1 space, value?]
    | none =>
      unfold value?
      split
      · simp [after?] at equals
      · simp [after?] at space
      · rfl

/-- An option written with its letter is read one part after the other. -/
theorem shortOption?_eq_bind :
    shortOption? text = (after? ['-'] text).bind fun inside =>
      match inside with
      | letter :: rest => if letter.isAlpha then some (mention (.short letter) rest) else none
      | [] => none := by
  cases hyphen : after? ['-'] text with
  | some inside =>
    rw [after?_singleton_iff.1 hyphen]
    cases inside <;> rfl
  | none =>
    unfold shortOption?
    split
    · simp [after?] at hyphen
    · rfl

/-- An option written with its name is read one part after the other. -/
theorem longOption?_eq_bind :
    longOption? text = (after? ['-', '-'] text).bind fun inside =>
      (name? inside).map fun found => mention (.long (String.ofList found.1)) found.2 := by
  cases hyphens : after? ['-', '-'] text with
  | some inside =>
    rw [after?_eq_some_iff.1 hyphens]
    show longOption? ('-' :: '-' :: inside) = _
    rw [longOption?, Option.bind_some]
    rcases name? inside with _ | ⟨found, rest⟩ <;> rfl
  | none =>
    unfold longOption?
    split
    · simp [after?] at hyphens
    · rfl

/-- A stack is read one part after the other. -/
theorem stack?_eq_bind :
    stack? text = (after? ['-'] text).bind fun inside =>
      match inside.takeWhile Char.isAlpha with
      | [] => none
      | [letter] =>
        let (single, rest) := mention (.short letter) (inside.dropWhile Char.isAlpha)
        some ([single], rest)
      | letters =>
        some (letters.map fun letter => ⟨.short letter, false⟩,
          inside.dropWhile Char.isAlpha) := by
  cases hyphen : after? ['-'] text with
  | some inside =>
    rw [after?_singleton_iff.1 hyphen]
    rfl
  | none =>
    unfold stack?
    split
    · simp [after?] at hyphen
    · rfl

end FirstWords

/-- Blanks are read where at least one comes next. -/
theorem isSome_blanks? (text : List Char) :
    (blanks? text).isSome = !(text.takeWhile isBlank).isEmpty := by
  cases text with
  | nil => rfl
  | cons c rest =>
    rw [blanks?, List.takeWhile_cons]
    cases isBlank c <;> rfl

/-- A name character continues a name. -/
theorem continuesName_eq (text : List Char) : continuesName text = text.head?.any isNameChar := by
  cases text <;> rfl

namespace Scanner

section Run

variable (scan : Scan)

/-- The place is what is left of the text. -/
@[simp] theorem run_place : place.run scan = pure (scan.rest, scan) := rfl

/-- Going to a place changes nothing else. -/
@[simp] theorem run_moveTo (rest : List Char) :
    (moveTo rest).run scan = pure (⟨⟩, scan.moved rest) := rfl

/-- Noting a mention changes nothing else. -/
@[simp] theorem run_note (found : Mention) :
    (note found).run scan = pure (⟨⟩, scan.noting [found]) := rfl

/-- Looking at the next character leaves the scan as it is. -/
@[simp] theorem run_sees (inside : Char → Bool) :
    (sees inside).run scan = pure (scan.rest.head?.any inside, scan) := rfl

/-- The characters of a class are read as far as they go. -/
@[simp] theorem run_eatWhile (inside : Char → Bool) :
    (eatWhile inside).run scan =
      pure (scan.rest.takeWhile inside, scan.moved (scan.rest.dropWhile inside)) := rfl

/-- Blanks are skipped, if there are any. -/
@[simp] theorem run_skip :
    skip.run scan = pure ((blanks? scan.rest).isSome, scan.moved (skipBlanks scan.rest)) := by
  rw [isSome_blanks?]
  rfl

/-- A word is read where it stands at the front. -/
@[simp] theorem run_eatWord (word : List Char) :
    (eatWord word).run scan = pure (scan.followed (after? word scan.rest)) := by
  cases found : after? word scan.rest <;> simp [eatWord, found, Scan.followed]

/-- A character is read where it stands at the front. -/
@[simp] theorem run_eat (c : Char) :
    (eat c).run scan = pure (scan.followed (after? [c] scan.rest)) := run_eatWord scan [c]

/-- A name is read, or the scan stays where it is. -/
@[simp] theorem run_name : name.run scan = pure (scan.follow (name? scan.rest)) := by
  cases text : scan.rest with
  | nil => simp [name, text, name?, Scan.follow]
  | cons c rest =>
    by_cases first : c.isAlphanum = true
    · have member : isNameChar c = true := by rw [isNameChar, first]; rfl
      simp [name, text, name?, first, member, Scan.follow]
    · simp [name, text, name?, first, Scan.follow]

/-- A name in angle brackets is read, or the scan goes back to where it was. -/
@[simp] theorem run_argument : argument.run scan = pure (scan.follow (bracketed? scan.rest)) := by
  rw [bracketed?_eq_bind]
  cases opening : after? ['<'] scan.rest with
  | none => simp [argument, opening, Scan.followed, Scan.follow]
  | some inside =>
    rcases found : name? inside with _ | ⟨found, rest⟩
    · simp [argument, opening, found, Scan.followed, Scan.follow]
    · cases closing : after? ['>'] rest <;>
        simp [argument, opening, found, closing, Scan.followed, Scan.follow]

/-- A placeholder is read, or the scan goes back to where it was. -/
@[simp] theorem run_placeholder :
    placeholder.run scan = pure (scan.followed (placeholder? scan.rest)) := by
  rw [placeholder?]
  rcases bracketed : bracketed? scan.rest with _ | ⟨found, rest⟩
  · rw [capitals?_eq, continuesName_eq]
    by_cases upper : scan.rest.head?.any Char.isUpper = true
    · by_cases longer : (scan.rest.dropWhile isCapitalChar).head?.any isNameChar = true <;>
        simp [placeholder, bracketed, upper, longer, Scan.followed, Scan.follow]
    · simp [placeholder, bracketed, upper, Scan.followed, Scan.follow]
  · simp [placeholder, bracketed, Scan.followed, Scan.follow]

/-- A placeholder is read with the sign that joins it, or the scan goes back to where it was. -/
@[simp] theorem run_value : value.run scan = pure (scan.followed (value? scan.rest)) := by
  rw [value?_eq]
  cases equals : after? ['='] scan.rest with
  | some rest =>
    cases found : placeholder? rest <;> simp [value, equals, found, Scan.followed]
  | none =>
    cases space : after? [' '] scan.rest with
    | some rest =>
      cases found : placeholder? rest <;> simp [value, equals, space, found, Scan.followed]
    | none => simp [value, equals, space, Scan.followed]

/-- A word is read where no longer name begins, or the scan goes back to where it was. -/
@[simp] theorem run_keyword (word : List Char) :
    (keyword word).run scan = pure (scan.followed (keyword? word scan.rest)) := by
  rw [keyword?]
  cases found : after? word scan.rest with
  | none => simp [keyword, found, Scan.followed]
  | some rest =>
    rw [Option.filter_some, continuesName_eq]
    by_cases longer : rest.head?.any isNameChar = true <;>
      simp [keyword, found, longer, Scan.followed]

/-- A short option is read with its placeholder, or the scan goes back to where it was. -/
@[simp] theorem run_shortOption :
    shortOption.run scan = pure (scan.follow (shortOption? scan.rest)) := by
  rw [shortOption?_eq_bind]
  cases hyphen : after? ['-'] scan.rest with
  | none => simp [shortOption, hyphen, Scan.followed, Scan.follow]
  | some inside =>
    cases inside with
    | nil => simp [shortOption, hyphen, Scan.followed, Scan.follow]
    | cons letter rest =>
      by_cases isLetter : letter.isAlpha = true
      · cases found : value? rest <;>
          simp [shortOption, hyphen, isLetter, mention, found, Scan.followed, Scan.follow]
      · simp [shortOption, hyphen, isLetter, Scan.followed, Scan.follow]

/-- A long option is read with its placeholder, or the scan goes back to where it was. -/
@[simp] theorem run_longOption :
    longOption.run scan = pure (scan.follow (longOption? scan.rest)) := by
  rw [longOption?_eq_bind]
  cases hyphens : after? ['-', '-'] scan.rest with
  | none => simp [longOption, hyphens, Scan.followed, Scan.follow]
  | some inside =>
    rcases named : name? inside with _ | ⟨found, rest⟩
    · simp [longOption, hyphens, named, Scan.followed, Scan.follow]
    · cases joined : value? rest <;>
        simp [longOption, hyphens, named, mention, joined, Scan.followed, Scan.follow]

/-- Letters are noted as options without placeholders, in order. -/
@[simp] theorem run_noteLetters (letters : List Char) :
    (forM letters fun letter => note ⟨.short letter, false⟩).run scan =
      pure (⟨⟩, scan.noting (letters.map fun letter => ⟨.short letter, false⟩)) := by
  induction letters generalizing scan with
  | nil => simp
  | cons letter later ih => simp [ih]

/-- A stack is read, with a placeholder after a single letter, and its letters are noted; or the
scan goes back to where it was and nothing is noted. -/
@[simp] theorem run_stack :
    stack.run scan = pure (scan.stacked (stack? scan.rest)) := by
  rw [stack?_eq_bind]
  cases hyphen : after? ['-'] scan.rest with
  | none => simp [stack, hyphen, Scan.followed, Scan.stacked]
  | some inside =>
    match letters : inside.takeWhile Char.isAlpha with
    | [] => simp [stack, hyphen, letters, Scan.followed, Scan.stacked]
    | [letter] =>
      cases joined : value? (inside.dropWhile Char.isAlpha) <;>
        simp [stack, hyphen, letters, mention, joined, Fragment.ofMentions, Scan.followed,
          Scan.stacked]
    | first :: second :: more =>
      simp [stack, hyphen, letters, Fragment.ofMentions, Scan.followed, Scan.stacked,
        Function.comp_def]

end Run

end Scanner

end Synopsis.Usage

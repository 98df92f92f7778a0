import Synopsis.Text.Blank
import Synopsis.Text.Name

/-!
# The front of a text

A word is cut off the front of a text at the first character that cannot belong to it. A text
that begins with a word and does not run on is cut exactly after the word. What is read of a text
advances in it if something is read, so that what is left is shorter.
-/
namespace Synopsis.Text

/-- A text does not begin with a character of a class. -/
def Ends (inside : Char → Bool) (text : List Char) : Prop :=
  ∀ c rest, text = c :: rest → inside c = false

/-- The empty text begins with no character. -/
theorem ends_nil (inside : Char → Bool) : Ends inside [] := by
  intro c rest begins
  contradiction

/-- A text begins with its first character. -/
theorem ends_cons {inside : Char → Bool} {c : Char} {rest : List Char} :
    Ends inside (c :: rest) ↔ inside c = false := by
  constructor
  · intro ends
    exact ends c rest rfl
  · intro outside d more begins
    injection begins with same _
    exact same ▸ outside

/-- Nothing is taken from a text that does not begin with the class. -/
theorem Ends.takeWhile {inside : Char → Bool} {rest : List Char} (ends : Ends inside rest) :
    rest.takeWhile inside = [] := by
  cases rest with
  | nil => rfl
  | cons c more => rw [List.takeWhile_cons, ends_cons.1 ends, if_neg Bool.false_ne_true]

/-- Nothing is dropped from a text that does not begin with the class. -/
theorem Ends.dropWhile {inside : Char → Bool} {rest : List Char} (ends : Ends inside rest) :
    rest.dropWhile inside = rest := by
  cases rest with
  | nil => rfl
  | cons c more => rw [List.dropWhile_cons, ends_cons.1 ends, if_neg Bool.false_ne_true]

/-- A word is taken whole where the text does not run on. -/
theorem takeWhile_word {inside : Char → Bool} {word rest : List Char}
    (all : ∀ c ∈ word, inside c = true) (ends : Ends inside rest) :
    (word ++ rest).takeWhile inside = word := by
  rw [List.takeWhile_append_of_pos all, ends.takeWhile, List.append_nil]

/-- The text after a word that it does not continue. -/
theorem dropWhile_word {inside : Char → Bool} {word rest : List Char}
    (all : ∀ c ∈ word, inside c = true) (ends : Ends inside rest) :
    (word ++ rest).dropWhile inside = rest := by
  rw [List.dropWhile_append_of_pos all, ends.dropWhile]

/-- A smaller class ends no later. -/
theorem Ends.mono {inside smaller : Char → Bool} {text : List Char} (ends : Ends inside text)
    (below : ∀ c, smaller c = true → inside c = true) : Ends smaller text := by
  intro c rest begins
  refine Bool.eq_false_iff.2 fun member => ?_
  have outside := ends c rest begins
  exact Bool.false_ne_true (outside.symm.trans (below c member))

/-- A text does not continue a name where no name character stands. -/
theorem continuesName_eq_false {text : List Char} :
    continuesName text = false ↔ Ends isNameChar text := by
  cases text with
  | nil => exact ⟨fun _ => ends_nil _, fun _ => rfl⟩
  | cons c rest => rw [ends_cons, continuesName]

/-- What is left after all characters of a class are dropped does not begin with one. -/
theorem ends_dropWhile (inside : Char → Bool) (text : List Char) :
    Ends inside (text.dropWhile inside) := by
  intro c rest left
  have first : (text.dropWhile inside).head? = some c := congrArg List.head? left
  have outside := List.head?_dropWhile_not inside text
  rw [first] at outside
  exact outside

/-- A name is read exactly where it stands at the front and does not run on. -/
theorem name?_eq_some_iff {text name rest : List Char} :
    name? text = some (name, rest) ↔
      isName name = true ∧ text = name ++ rest ∧ Ends isNameChar rest := by
  constructor
  · intro read
    refine ⟨isName_of_name? read, append_of_name? read, ?_⟩
    cases text with
    | nil => contradiction
    | cons c more =>
      rw [name?] at read
      split at read
      · obtain ⟨-, rfl⟩ := Prod.mk.inj (Option.some.inj read)
        exact ends_dropWhile isNameChar more
      · contradiction
  · rintro ⟨named, rfl, ends⟩
    exact name?_append named (continuesName_eq_false.2 ends)

/-- The first character of a name is a letter or a digit. -/
theorem exists_first_of_isName {name : List Char} (named : isName name = true) :
    ∃ c more, name = c :: more ∧ c.isAlphanum = true ∧ ∀ d ∈ more, isNameChar d = true := by
  cases name with
  | nil => exact absurd named (by decide)
  | cons c more =>
    simp only [isName, Bool.and_eq_true, List.all_eq_true] at named
    exact ⟨c, more, rfl, named⟩

/-- Letters belong to names. -/
theorem isNameChar_of_isAlpha {c : Char} (letter : c.isAlpha = true) : isNameChar c = true := by
  rw [isNameChar, Char.isAlphanum, letter, Bool.true_or, Bool.true_or, Bool.true_or]

/-- A first blank is skipped. -/
theorem skipBlanks_cons {c : Char} {text : List Char} (blank : isBlank c = true) :
    skipBlanks (c :: text) = skipBlanks text := by
  rw [skipBlanks, List.dropWhile_cons, if_pos blank, skipBlanks]

/-- Where all of a text is skipped, it is all blanks. -/
theorem isBlank_of_skipBlanks {text : List Char} (blank : skipBlanks text = []) :
    ∀ c ∈ text, isBlank c = true := by
  have split := List.takeWhile_append_dropWhile (p := isBlank) (l := text)
  have none : text.dropWhile isBlank = [] := blank
  rw [none, List.append_nil] at split
  have all := List.all_takeWhile (p := isBlank) (l := text)
  rw [split] at all
  exact List.all_eq_true.1 all

/-- What is left after blanks ends the text. -/
theorem skipBlanks_suffix (text : List Char) : skipBlanks text <:+ text :=
  List.dropWhile_suffix isBlank

/-- Something is read of a text: what is left is the end of it, and shorter. -/
structure Advances (text rest : List Char) : Prop where
  /-- What is left ends the text. -/
  suffix : rest <:+ text
  /-- What is left is shorter than the text. -/
  shorter : rest.length < text.length

/-- A first character and possibly more of a text is read. -/
theorem advances_cons {c : Char} {text rest : List Char} (suffix : rest <:+ text) :
    Advances (c :: text) rest :=
  ⟨suffix.trans (List.suffix_cons c text), Nat.lt_succ_of_le suffix.length_le⟩

/-- Possibly more is read after something is read. -/
theorem Advances.more {text middle rest : List Char} (advances : Advances text middle)
    (suffix : rest <:+ middle) : Advances text rest :=
  ⟨suffix.trans advances.suffix, Nat.lt_of_le_of_lt suffix.length_le advances.shorter⟩

/-- Something is read, possibly after more of the text. -/
theorem Advances.of_suffix {text middle rest : List Char} (advances : Advances middle rest)
    (suffix : middle <:+ text) : Advances text rest :=
  ⟨advances.suffix.trans suffix, Nat.lt_of_lt_of_le advances.shorter suffix.length_le⟩

/-- What is left of a text is the text itself unless something is read. -/
theorem advances_of_ne {text rest : List Char} (suffix : rest <:+ text) (other : rest ≠ text) :
    Advances text rest := by
  refine ⟨suffix, Nat.lt_of_le_of_ne suffix.length_le fun same => ?_⟩
  exact other (suffix.eq_of_length same)

end Synopsis.Text

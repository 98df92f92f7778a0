/-!
# Names

A name is an ASCII letter or digit followed by ASCII letters, digits, hyphens and underscores.
-/
namespace Synopsis.Text

/-- A character that may continue a name. -/
def isNameChar (c : Char) : Bool := c.isAlphanum || c = '-' || c = '_'

/-- Whether the whole text is a name. -/
def isName : List Char → Bool
  | c :: rest => c.isAlphanum && rest.all isNameChar
  | [] => false

/-- The longest name at the front of a text, and the text after it. -/
def name? : List Char → Option (List Char × List Char)
  | c :: rest =>
    if c.isAlphanum then some (c :: rest.takeWhile isNameChar, rest.dropWhile isNameChar)
    else none
  | [] => none

/-- Whether the text begins with a character that would continue a name. -/
def continuesName : List Char → Bool
  | c :: _ => isNameChar c
  | [] => false

/-- What is read at the front of a text is a name. -/
theorem isName_of_name? {text name rest : List Char} (read : name? text = some (name, rest)) :
    isName name = true := by
  cases text with
  | nil => simp [name?] at read
  | cons c more =>
    by_cases first : c.isAlphanum <;> simp only [name?, first, if_true, if_false,
      Bool.false_eq_true, Option.some.injEq, Prod.mk.injEq, reduceCtorEq] at read
    obtain ⟨rfl, rfl⟩ := read
    rw [isName, first, Bool.true_and, List.all_takeWhile]

/-- A name read at the front of a text is followed there by exactly the rest. -/
theorem append_of_name? {text name rest : List Char} (read : name? text = some (name, rest)) :
    text = name ++ rest := by
  cases text with
  | nil => simp [name?] at read
  | cons c more =>
    by_cases first : c.isAlphanum <;> simp only [name?, first, if_true, if_false,
      Bool.false_eq_true, Option.some.injEq, Prod.mk.injEq, reduceCtorEq] at read
    obtain ⟨rfl, rfl⟩ := read
    simp

/-- A name followed by no further name character is read whole. -/
theorem name?_append {name rest : List Char} (named : isName name = true)
    (ends : continuesName rest = false) : name? (name ++ rest) = some (name, rest) := by
  cases name with
  | nil => simp [isName] at named
  | cons c more =>
    simp only [isName, Bool.and_eq_true, List.all_eq_true] at named
    have stop : rest.takeWhile isNameChar = [] ∧ rest.dropWhile isNameChar = rest := by
      cases rest with
      | nil => exact ⟨rfl, rfl⟩
      | cons d later =>
        rw [continuesName] at ends
        rw [List.takeWhile_cons, List.dropWhile_cons, ends]
        exact ⟨rfl, rfl⟩
    rw [List.cons_append, name?, if_pos named.1, List.takeWhile_append_of_pos named.2,
      List.dropWhile_append_of_pos named.2, stop.1, stop.2, List.append_nil]

end Synopsis.Text

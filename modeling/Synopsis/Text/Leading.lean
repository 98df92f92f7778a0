/-!
# Text at the front

A fixed word may stand at the front of a text, or be searched for in it.
-/
namespace Synopsis.Text

/-- The text after a word at its front. -/
def after? : List Char → List Char → Option (List Char)
  | [], text => some text
  | _ :: _, [] => none
  | w :: word, c :: text => if w = c then after? word text else none

/-- The text after a lower-case word at its front, whatever the case of its ASCII letters. -/
def afterFolded? : List Char → List Char → Option (List Char)
  | [], text => some text
  | _ :: _, [] => none
  | w :: word, c :: text => if w = c.toLower then afterFolded? word text else none

/-- A word that opens a text is followed there by exactly the rest. -/
theorem after?_eq_some_iff {word text rest : List Char} :
    after? word text = some rest ↔ text = word ++ rest := by
  induction word generalizing text with
  | nil => simp [after?]
  | cons w word ih =>
    cases text with
    | nil => simp [after?]
    | cons c text =>
      rw [after?]
      split
      · next same => rw [ih, List.cons_append, List.cons.injEq, eq_comm (a := c), and_iff_right same]
      · next other =>
        simp only [List.cons_append, List.cons.injEq, reduceCtorEq, false_iff, not_and]
        exact fun same => absurd same.symm other

end Synopsis.Text

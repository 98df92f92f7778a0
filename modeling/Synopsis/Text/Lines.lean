/-!
# Lines

A line is kept together with the line feed that ends it, so that a text is the concatenation of
its lines. Only the last line can be without a line feed, and no line is empty.
-/
namespace Synopsis.Text

/-- The lines of a text, each with the line feed that ends it. -/
def lines : List Char → List (List Char)
  | [] => []
  | c :: rest =>
    if c = '\n' then ['\n'] :: lines rest
    else
      match lines rest with
      | [] => [[c]]
      | line :: later => (c :: line) :: later

/-- A text is the concatenation of its lines. -/
theorem lines_flatten (text : List Char) : (lines text).flatten = text := by
  induction text with
  | nil => rfl
  | cons c rest ih =>
    rw [lines]
    split
    · next feed => rw [List.flatten_cons, ih, feed, List.singleton_append]
    · split
      · next none => rw [none, List.flatten_nil] at ih; rw [← ih]; rfl
      · next line later found =>
        rw [found, List.flatten_cons] at ih
        rw [List.flatten_cons, List.cons_append, ih]

/-- A text that begins with a complete line has that line first. -/
theorem lines_append {line : List Char} (single : '\n' ∉ line) (later : List Char) :
    lines (line ++ '\n' :: later) = (line ++ ['\n']) :: lines later := by
  induction line with
  | nil => simp [lines]
  | cons c rest ih =>
    have other : c ≠ '\n' := fun same => single (same ▸ List.mem_cons_self)
    have tail : '\n' ∉ rest := fun mem => single (List.mem_cons_of_mem _ mem)
    rw [List.cons_append, lines, if_neg other, ih tail]
    rfl

/-- A text without line feeds is one line. -/
theorem lines_single {line : List Char} (single : '\n' ∉ line) (filled : line ≠ []) :
    lines line = [line] := by
  induction line with
  | nil => exact absurd rfl filled
  | cons c rest ih =>
    have other : c ≠ '\n' := fun same => single (same ▸ List.mem_cons_self)
    have tail : '\n' ∉ rest := fun mem => single (List.mem_cons_of_mem _ mem)
    rw [lines, if_neg other]
    by_cases empty : rest = []
    · subst empty; rfl
    · rw [ih tail empty]

end Synopsis.Text

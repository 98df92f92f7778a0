import Synopsis.Proofs.Text.Feed

/-!
# Lines and their ends

The lines of a text all end with a line feed but for the last one, which may end with the text. How
a line ends does not matter where it is judged as a whole, because a line break is white space.
-/
namespace Synopsis.Text

/-- The lines of some text, each with what ends it. -/
inductive Lined : List (List Char) → Prop where
  /-- There are no lines. -/
  | nil : Lined []
  /-- A line and the lines after it; only the last line may be without a line feed. -/
  | cons {line feed : List Char} {later : List (List Char)} (single : '\n' ∉ line)
      (ends : feed = ['\n'] ∨ feed = [] ∧ line ≠ [] ∧ later = []) (more : Lined later) :
      Lined ((line ++ feed) :: later)

/-- The lines after the first one are lines. -/
theorem Lined.tail {list : List (List Char)} (lined : Lined list) : Lined list.tail := by
  cases lined with
  | nil => exact .nil
  | cons single ends more => exact more

/-- The later ones of some lines are lines. -/
theorem Lined.of_append {front later : List (List Char)} (lined : Lined (front ++ later)) :
    Lined later := by
  induction front with
  | nil => exact lined
  | cons line front ih => exact ih lined.tail

/-- Some lines have a line feed, unless no others follow. -/
theorem Lined.whole {line : List Char} {front later : List (List Char)}
    (lined : Lined (line :: front ++ later)) : '\n' ∈ (line :: front).flatten ∨ later = [] := by
  cases lined with
  | cons single ends more =>
    rcases ends with rfl | ⟨-, -, none⟩
    · exact .inl (by simp)
    · exact .inr (List.append_eq_nil_iff.1 none).2

/-- A part of a first line up to its end is a line. -/
theorem Lined.of_suffix {line rest : List Char} {later : List (List Char)}
    (lined : Lined (line :: later)) (suffix : rest <:+ line) (filled : rest ≠ []) :
    Lined (rest :: later) := by
  cases lined with
  | @cons body feed _ single ends more =>
    rcases ends with rfl | ⟨rfl, -, none⟩
    · have closed : Closed (body ++ ['\n']) := List.getLast?_concat ..
      obtain ⟨own, rfl⟩ := List.getLast?_eq_some_iff.1 (closed.of_suffix suffix filled)
      obtain ⟨front, same⟩ := suffix
      rw [← List.append_assoc] at same
      have split : front ++ own = body := List.append_cancel_right same
      exact .cons (fun mem => single (split ▸ List.mem_append_right front mem)) (.inl rfl) more
    · rw [List.append_nil] at suffix
      rw [← List.append_nil rest]
      exact .cons (fun mem => single (suffix.subset mem)) (.inr ⟨rfl, filled, none⟩) more

/-- A text is divided into lines. -/
theorem lined_lines (text : List Char) : Lined (lines text) := by
  induction text with
  | nil => exact .nil
  | cons c rest ih =>
    rw [lines]
    split
    · exact @Lined.cons [] ['\n'] _ List.not_mem_nil (.inl rfl) ih
    · next other =>
      have single : ∀ {line}, '\n' ∉ line → '\n' ∉ c :: line :=
        fun none => List.not_mem_cons_of_ne_of_not_mem (Ne.symm other) none
      cases found : lines rest with
      | nil => exact @Lined.cons [c] [] _ (single List.not_mem_nil) (.inr (by simp)) .nil
      | cons line later =>
        rw [found] at ih
        cases ih with
        | @cons line feed _ none ends more =>
          refine @Lined.cons (c :: line) _ _ (single none) (ends.imp_right fun last => ?_) more
          exact ⟨last.1, List.cons_ne_nil c line, last.2.2⟩

/-- The lines of a text are the lines of what they make up. -/
theorem Lined.lines_flatten {list : List (List Char)} (lined : Lined list) :
    lines list.flatten = list := by
  induction lined with
  | nil => rfl
  | @cons line feed later single ends more ih =>
    rcases ends with rfl | ⟨rfl, filled, rfl⟩
    · rw [List.flatten_cons, List.append_assoc, List.singleton_append, lines_append single, ih]
    · simp [lines_single single filled]

/-- Nothing of a line is left after a line feed. -/
theorem eq_nil_of_feed {line feed rest : List Char} (single : '\n' ∉ line)
    (ends : feed = ['\n'] ∨ feed = []) (left : '\n' :: rest <:+ line ++ feed) : rest = [] := by
  have counted := left.sublist.count_le '\n'
  rw [List.count_cons_self, List.count_append, List.count_eq_zero.2 single] at counted
  have suffix : rest <:+ line ++ feed := (List.suffix_cons _ _).trans left
  rcases ends with rfl | rfl
  · by_cases none : rest = []
    · exact none
    · have closed : Closed (line ++ ['\n']) := List.getLast?_concat ..
      have more := List.count_pos_iff.2 (closed.of_suffix suffix none).mem
      rw [List.count_singleton_self] at counted
      omega
  · rw [List.count_nil] at counted
    omega

/-- What ends a line: a line break of either form, or nothing. -/
inductive Break : List Char → Prop where
  /-- The line ends with the text. -/
  | none : Break []
  /-- A line feed. -/
  | feed : Break ['\n']
  /-- A carriage return and a line feed. -/
  | both : Break ['\r', '\n']

/-- A line stops where it ends. -/
theorem Break.stops {text : List Char} (ends : Break text) : Stops text := by
  cases ends with
  | none => exact .nil
  | feed => exact .feed []
  | both => exact .carriage ['\n']

/-- A line break is white space. -/
theorem Break.white {text : List Char} (ends : Break text) : ∀ c ∈ text, isWhite c = true := by
  have feed : isWhite '\n' = true := by decide
  have carriage : isWhite '\r' = true := by decide
  cases ends <;> simp [feed, carriage]

/-- White space at the end of a text is skipped only with all of it. -/
theorem skipWhite_append {tail : List Char} (white : ∀ c ∈ tail, isWhite c = true)
    (text : List Char) :
    skipWhite (text ++ tail) = if skipWhite text = [] then [] else skipWhite text ++ tail := by
  have all : tail.dropWhile isWhite = [] := by
    have skipped := @List.dropWhile_append_of_pos _ isWhite tail [] white
    rwa [List.append_nil] at skipped
  rw [skipWhite, List.dropWhile_append, all, skipWhite]
  simp only [List.isEmpty_iff]

end Synopsis.Text

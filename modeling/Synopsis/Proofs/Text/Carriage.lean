import Synopsis.Proofs.Text.Lines

/-!
# Carriage returns at the ends of lines

A text whose line breaks are carriage returns with line feeds has the same lines as one with bare
line feeds. Both forms are white space, so white space is found at the same places in them.
-/
namespace Synopsis.Text

/-- The text with a carriage return before each line feed. -/
def crlf (text : List Char) : List Char :=
  text.flatMap fun c => if c = '\n' then ['\r', '\n'] else [c]

/-- A line feed gets its carriage return. -/
theorem crlf_feed (rest : List Char) : crlf ('\n' :: rest) = '\r' :: '\n' :: crlf rest := rfl

/-- Any other character stays as it is. -/
theorem crlf_cons {c : Char} (other : c ≠ '\n') (rest : List Char) :
    crlf (c :: rest) = c :: crlf rest := by
  rw [crlf, List.flatMap_cons, if_neg other, List.singleton_append, crlf]

/-- Texts are changed one after the other. -/
theorem crlf_append (text later : List Char) : crlf (text ++ later) = crlf text ++ crlf later :=
  List.flatMap_append

/-- Lines are changed one by one. -/
theorem crlf_flatten (list : List (List Char)) : crlf list.flatten = (list.map crlf).flatten := by
  rw [crlf, List.flatMap_def, List.map_flatten, List.flatten_flatten, List.map_map]
  rfl

/-- A text without line feeds stays as it is. -/
theorem crlf_inline {text : List Char} (single : '\n' ∉ text) : crlf text = text := by
  induction text with
  | nil => rfl
  | cons c rest ih =>
    obtain ⟨other, more⟩ := List.ne_and_not_mem_of_not_mem_cons single
    rw [crlf_cons other.symm, ih more]

/-- Characters that belong to no line break are the same. -/
theorem mem_crlf {c : Char} (feed : c ≠ '\n') (carriage : c ≠ '\r') (text : List Char) :
    c ∈ crlf text ↔ c ∈ text := by
  have same : ∀ d, c ∈ (if d = '\n' then ['\r', '\n'] else [d]) ↔ c = d := by
    intro d
    by_cases isFeed : d = '\n' <;> simp [isFeed, feed, carriage]
  simp only [crlf, List.mem_flatMap, same, exists_eq_right']

/-- Lines stay as they are when carriage returns come before their ends. -/
theorem keepsLines_crlf : KeepsLines crlf where
  other := fun other => crlf_cons other _
  feed rest := .carriage _
  nil := .nil
  length := by
    rintro rest text ⟨front, rfl⟩
    rw [crlf_append, List.length_append]
    exact Nat.le_add_left _ _

/-- The lines of a changed text are the lines of the text, changed. -/
theorem lines_crlf (text : List Char) : lines (crlf text) = (lines text).map crlf := by
  have lined := lined_lines text
  have flat := lines_flatten text
  rw [← flat]
  generalize lines text = list at lined
  rw [lined.lines_flatten]
  induction lined with
  | nil => rfl
  | @cons line feed later single ends more ih =>
    rcases ends with rfl | ⟨rfl, filled, rfl⟩
    · have apart : '\n' ∉ line ++ ['\r'] := by simp [single]
      have first := lines_append apart (crlf later.flatten)
      rw [List.flatten_cons, crlf_append, crlf_append, crlf_inline single, List.map_cons,
        crlf_append, crlf_inline single, ← ih]
      rw [List.append_assoc, List.append_assoc] at first
      rw [List.append_assoc]
      exact first
    · rw [List.append_nil, List.flatten_cons, List.flatten_nil, List.append_nil,
        crlf_inline single, lines_single single filled, List.map_cons, crlf_inline single,
        List.map_nil]

/-- White space at the front of a text is skipped alike if other white space replaces each line
feed. -/
theorem skipWhite_flatMap {ending : List Char} (white : ∀ c ∈ ending, isWhite c = true)
    (text : List Char) :
    skipWhite (text.flatMap fun c => if c = '\n' then ending else [c]) =
      (skipWhite text).flatMap fun c => if c = '\n' then ending else [c] := by
  induction text with
  | nil => rfl
  | cons c rest ih =>
    rw [List.flatMap_cons]
    by_cases feed : c = '\n'
    · have skipped : skipWhite (c :: rest) = skipWhite rest := by
        rw [feed]
        rfl
      rw [if_pos feed, skipWhite, List.dropWhile_append_of_pos white, ← skipWhite, ih, skipped]
    · rw [if_neg feed, List.singleton_append, skipWhite, List.dropWhile_cons]
      cases isWhite' : isWhite c with
      | true =>
        have skipped : skipWhite (c :: rest) = skipWhite rest := by
          rw [skipWhite, List.dropWhile_cons, isWhite', if_pos rfl, skipWhite]
        rw [if_pos rfl, ← skipWhite, ih, skipped]
      | false =>
        have stays : skipWhite (c :: rest) = c :: rest := by
          rw [skipWhite, List.dropWhile_cons, isWhite', if_neg Bool.false_ne_true]
        rw [if_neg Bool.false_ne_true, stays, List.flatMap_cons, if_neg feed,
          List.singleton_append]

/-- White space at the front of a text is skipped alike. -/
theorem skipWhite_crlf (text : List Char) : skipWhite (crlf text) = crlf (skipWhite text) :=
  skipWhite_flatMap Break.both.white text

/-- White space at both ends of a text is left out alike. -/
theorem trimWhite_crlf (text : List Char) : trimWhite (crlf text) = crlf (trimWhite text) := by
  -- from its end, a line break is read as a line feed and then a carriage return
  let turned (text : List Char) := text.flatMap fun c => if c = '\n' then ['\n', '\r'] else [c]
  have reverse : ∀ text : List Char, (crlf text).reverse = turned text.reverse := by
    intro text
    rw [crlf, List.reverse_flatMap]
    refine congrArg (List.flatMap · text.reverse) (funext fun c => ?_)
    by_cases feed : c = '\n' <;> simp [feed]
  have skipped : ∀ text : List Char, skipWhite (turned text) = turned (skipWhite text) := by
    have white : ∀ c ∈ ['\n', '\r'], isWhite c = true := fun c mem =>
      Break.both.white c (List.mem_reverse.1 mem)
    exact skipWhite_flatMap white
  have back := reverse (skipWhite (skipWhite text).reverse).reverse
  rw [List.reverse_reverse] at back
  rw [trimWhite, trimWhite, skipWhite_crlf, reverse, skipped, ← back, List.reverse_reverse]

/-- Characters of a class that line breaks belong to are taken alike. -/
theorem takeWhile_crlf {inside : Char → Bool} (feed : inside '\n' = true)
    (carriage : inside '\r' = true) (text : List Char) :
    (crlf text).takeWhile inside = crlf (text.takeWhile inside) := by
  induction text with
  | nil => rfl
  | cons c rest ih =>
    by_cases isFeed : c = '\n'
    · rw [isFeed, crlf_feed, List.takeWhile_cons, carriage, if_pos rfl, List.takeWhile_cons, feed,
        if_pos rfl, ih, List.takeWhile_cons, feed, if_pos rfl, crlf_feed]
    · rw [crlf_cons isFeed, List.takeWhile_cons, List.takeWhile_cons, ih]
      split
      · rw [crlf_cons isFeed]
      · rfl

end Synopsis.Text

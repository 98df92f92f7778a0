import Synopsis.Proofs.Text.Lines
import Synopsis.Proofs.Usage.Line

/-!
# Usage blocks with more text after them

The header of a usage block is looked for line by line, and the block ends no later than at a line
that begins with a hyphen. So more text leaves the usage lines as they are if it begins with such a
line, or if something already remains after the block, and its lines are added to those that remain.
-/
namespace Synopsis.Usage

open Text

/-- A header is read alike. -/
theorem header?_keeps {f : List Char → List Char} (keeps : Keeps Pauses f) :
    ∀ text, header? (f text) = (header? text).map f := by
  refine keeps.reads (fun pauses => by cases pauses <;> rfl) fun c rest => ?_
  by_cases upper : c = 'U'
  · subst upper
    exact after?_keeps keeps (·.ends (by decide)) rest
  · by_cases lower : c = 'u'
    · subst lower
      exact after?_keeps keeps (·.ends (by decide)) rest
    · simp [header?, upper, lower]

/-- A header is looked for up to a line feed, and then after it. -/
theorem findHeader_append_feed (inWord : Bool) (text after : List Char) :
    findHeader inWord (text ++ '\n' :: after) =
      ((findHeader inWord text).map (· ++ '\n' :: after)).or (findHeader false after) := by
  have feed : isWordChar '\n' = false := by decide
  induction text generalizing inWord with
  | nil => cases inWord <;> simp [findHeader, header?, feed]
  | cons c rest ih =>
    have header : header? (c :: rest ++ '\n' :: after) =
        (header? (c :: rest)).map (· ++ '\n' :: after) :=
      header?_keeps (keepsLines_append (.feed after)).words (c :: rest)
    rw [List.cons_append, findHeader, findHeader, ih, ← List.cons_append, header]
    cases inWord with
    | true => rfl
    | false => cases header? (c :: rest) <;> rfl

/-- What is left after a header ends the text. -/
theorem header?_suffix {text rest : List Char} (read : header? text = some rest) :
    rest <:+ text := by
  unfold header? at read
  split at read
  · rw [after?_eq_some_iff] at read
    exact read ▸ ⟨'U' :: headerTail, rfl⟩
  · rw [after?_eq_some_iff] at read
    exact read ▸ ⟨'u' :: headerTail, rfl⟩
  · contradiction

/-- What is left after the first header ends the text. -/
theorem findHeader_suffix {inWord : Bool} {text rest : List Char}
    (found : findHeader inWord text = some rest) : rest <:+ text := by
  induction text generalizing inWord with
  | nil => contradiction
  | cons c more ih =>
    rw [findHeader] at found
    split at found
    · exact (ih found).trans (List.suffix_cons c more)
    · split at found
      · next here => exact Option.some.inj found ▸ header?_suffix here
      · exact (ih found).trans (List.suffix_cons c more)

/-- A line break at the front is skipped. -/
theorem skipBreak_suffix (text : List Char) : skipBreak text <:+ text := by
  unfold skipBreak
  split
  · exact (List.suffix_cons _ _).trans (List.suffix_cons _ _)
  · exact List.suffix_cons _ _
  · exact List.suffix_refl _

/-- A text is left as it is where no line break comes first. -/
theorem skipBreak_eq_self {text : List Char} (feed : ∀ rest, text ≠ '\n' :: rest)
    (both : ∀ rest, text ≠ '\r' :: '\n' :: rest) : skipBreak text = text := by
  unfold skipBreak
  split
  · next rest => exact absurd rfl (both rest)
  · next rest => exact absurd rfl (feed rest)
  · rfl

namespace Block

/-- More lines remain after a block of earlier lines. Where nothing remains of these, the first one
of the others has to end the block. -/
theorem Taken.append {anyway : Bool} {lines more : List (List Char)} {block : Block}
    (taken : Taken anyway lines block) (filled : lines ≠ [] ∨ anyway = false)
    (ends : block.remaining = [] → ∀ line ∈ more.head?, endsBlock line = true) :
    Taken anyway (lines ++ more) ⟨block.usages, block.remaining ++ more⟩ := by
  induction taken with
  | all anyway =>
    obtain rfl : anyway = false := filled.resolve_left fun some => some rfl
    cases more with
    | nil => exact .all false
    | cons line later => exact .stop (ends rfl line rfl)
  | stop own => exact .stop own
  | usage counts one whole more ih => exact .usage counts one whole (ih (.inr rfl) ends)
  | part counts one left own => exact .part counts one left own

/-- What remains of closed lines is closed. -/
theorem Taken.closed {anyway : Bool} {lines : List (List Char)} {block : Block}
    (taken : Taken anyway lines block) (closed : ∀ line ∈ lines, Closed line) :
    ∀ line ∈ block.remaining, Closed line := by
  induction taken with
  | all anyway => exact closed
  | stop ends => exact closed
  | usage counts one whole more ih =>
    exact ih (List.forall_mem_cons.1 closed).2
  | part counts one left ends =>
    have ⟨first, later⟩ := List.forall_mem_cons.1 closed
    have suffix := (skipBreak_suffix _).trans (usageLine_suffix one)
    exact List.forall_mem_cons.2 ⟨first.of_suffix suffix left, later⟩

/-- What remains of lines are lines. -/
theorem Taken.lined {anyway : Bool} {lines : List (List Char)} {block : Block}
    (taken : Taken anyway lines block) (lined : Lined lines) : Lined block.remaining := by
  induction taken with
  | all anyway => exact lined
  | stop ends => exact lined
  | usage counts one whole more ih => exact ih lined.tail
  | part counts one left ends =>
    exact lined.of_suffix ((skipBreak_suffix _).trans (usageLine_suffix one)) left

/-- What remains of lines ends their text. -/
theorem Taken.suffix {anyway : Bool} {lines : List (List Char)} {block : Block}
    (taken : Taken anyway lines block) : block.remaining.flatten <:+ lines.flatten := by
  induction taken with
  | all anyway => exact List.suffix_refl _
  | stop ends => exact List.suffix_refl _
  | usage counts one whole more ih => exact ih.trans (List.suffix_append _ _)
  | @part anyway line rest later found counts one left ends =>
    obtain ⟨front, same⟩ := (skipBreak_suffix _).trans (usageLine_suffix one)
    rw [List.flatten_cons, List.flatten_cons, ← same, List.append_assoc]
    exact List.suffix_append front _

/-- The usage lines are taken from the lines behind the header, or from those below it. -/
theorem exists_afterHeader (text : List Char) :
    ∃ anyway list, Lined list ∧ list.flatten <:+ text ∧
      afterHeader text = ofLines anyway list := by
  have lined := lined_lines text
  have flat := lines_flatten text
  rw [afterHeader]
  split
  · have tail : (lines text).tail.flatten <:+ (lines text).flatten := by
      cases lines text with
      | nil => exact List.suffix_refl _
      | cons line later => exact List.suffix_append line later.flatten
    rw [flat] at tail
    exact ⟨false, _, lined.tail, tail, rfl⟩
  · exact ⟨true, lines text, lined, ⟨[], flat⟩, rfl⟩

/-- A block that is read is taken from lines of the text. -/
theorem taken_of_ofText {text : List Char} {block : Block} (read : ofText text = .ok block) :
    ∃ anyway list, Lined list ∧ list.flatten <:+ text ∧ Taken anyway list block := by
  rw [ofText] at read
  split at read
  · contradiction
  · next rest header =>
    split at read
    · contradiction
    · next found after =>
      split at read
      · contradiction
      · obtain rfl := Except.ok.inj read
        obtain ⟨anyway, list, lined, suffix, same⟩ := exists_afterHeader rest
        have taken := ofLines_eq_ok_iff.1 (same.symm.trans after)
        exact ⟨anyway, list, lined, suffix.trans (findHeader_suffix header), taken⟩

/-- What remains after a usage block are lines that end the text. -/
theorem remaining_of_ofText {text : List Char} {block : Block} (read : ofText text = .ok block) :
    Lined block.remaining ∧ block.remaining.flatten <:+ text := by
  obtain ⟨anyway, list, lined, suffix, taken⟩ := taken_of_ofText read
  exact ⟨taken.lined lined, taken.suffix.trans suffix⟩

/-- A closed text has the same usage lines behind or below a header with more text, of which the
lines are added to them. -/
theorem exists_afterHeader_append {text : List Char} (closed : Closed text) :
    ∃ anyway list, (list ≠ [] ∨ anyway = false) ∧ (∀ line ∈ list, Closed line) ∧
      afterHeader text = ofLines anyway list ∧
      ∀ later, afterHeader (text ++ later) = ofLines anyway (list ++ lines later) := by
  have filled : lines text ≠ [] := lines_ne_nil fun none => by
    rw [none] at closed
    contradiction
  have each : ∀ line ∈ lines text, Closed line := fun line => closed.of_mem_lines
  have place : ∀ later, atLineEnd (skipBlanks (text ++ later)) = atLineEnd (skipBlanks text) := by
    intro later
    obtain ⟨body, rfl⟩ := List.getLast?_eq_some_iff.1 closed
    have ended : ∀ after, atLineEnd (skipBlanks (body ++ '\n' :: after)) =
        atLineEnd (skipBlanks body) := by
      intro after
      have keeps := keepsLines_append (.feed after)
      exact (congrArg atLineEnd (skipBlanks_keeps keeps body)).trans (atLineEnd_keeps keeps _)
    rw [List.append_assoc, List.singleton_append, ended, ended]
  simp only [afterHeader, place, closed.lines_append]
  by_cases headerEnds : atLineEnd (skipBlanks text) = true
  · refine ⟨false, (lines text).tail, .inr rfl,
      fun line mem => each line (List.mem_of_mem_tail mem), if_pos headerEnds, fun later => ?_⟩
    rw [if_pos headerEnds, List.tail_append_of_ne_nil filled]
  · exact ⟨true, lines text, .inl filled, each, if_neg headerEnds, fun later => if_neg headerEnds⟩

/-- The usage lines after a header are the same with more text, if something remains after them or
the text begins with a line that ends the block. -/
theorem afterHeader_append {text later : List Char} {block : Block} (closed : Closed text)
    (ends : block.remaining = [] → ∀ line ∈ (lines later).head?, endsBlock line = true)
    (read : afterHeader text = .ok block) :
    afterHeader (text ++ later) = .ok ⟨block.usages, block.remaining ++ lines later⟩ ∧
      ∀ line ∈ block.remaining, Closed line := by
  obtain ⟨anyway, list, filled, each, same, more⟩ := exists_afterHeader_append closed
  have taken := ofLines_eq_ok_iff.1 (same.symm.trans read)
  rw [more, ofLines_eq_ok_iff]
  exact ⟨taken.append filled ends, taken.closed each⟩

/-- More text is added to what remains of a closed text, if that is something or the text begins
with a line that ends the block. -/
theorem ofText_append {text later : List Char} {block : Block} (closed : Closed text)
    (ends : block.remaining = [] → ∀ line ∈ (lines later).head?, endsBlock line = true)
    (read : ofText text = .ok block) :
    ofText (text ++ later) = .ok ⟨block.usages, block.remaining ++ lines later⟩ ∧
      ∀ line ∈ block.remaining, Closed line := by
  obtain ⟨body, rfl⟩ := List.getLast?_eq_some_iff.1 closed
  rw [ofText, afterHeader?, findHeader_append_feed] at read
  rw [ofText, afterHeader?, List.append_assoc, List.singleton_append, findHeader_append_feed]
  cases header : findHeader false body with
  | none =>
    rw [header] at read
    contradiction
  | some rest =>
    rw [header] at read
    dsimp only [Option.map_some, Option.some_or] at read ⊢
    split at read
    · contradiction
    · next found after =>
      split at read
      · contradiction
      · next some =>
        obtain rfl := Except.ok.inj read
        have ⟨more, each⟩ := afterHeader_append (List.getLast?_concat ..) ends after
        rw [List.append_assoc, List.singleton_append] at more
        rw [more]
        dsimp only
        rw [if_neg some]
        exact ⟨rfl, each⟩

end Block

end Synopsis.Usage

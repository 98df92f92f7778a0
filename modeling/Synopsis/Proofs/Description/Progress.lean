import Synopsis.Proofs.Description.Record
import Synopsis.Proofs.Loop
import Synopsis.Proofs.Text.FirstLine

/-!
# Progress in descriptions

The lines before the first record are skipped one by one, and the records are read one after the
other, each up to the next line that opens a record. Both loops, and the one over the spellings of a
record, read something of the text in every turn. They end with what the lines are read as.
-/
namespace Synopsis.Description

open Text
open Usage (Mention)

/-- The loop that skips lines up to one that opens a record, over the text that is left. -/
def leadingLoop : Loop (List Char) (List Char) := fun text =>
  if !text.isEmpty && !isDashLine (firstLine text) then .again (skipLine text) else .leave text

/-- The text from the first line on that opens a record. -/
def fromRecord (text : List Char) : List Char :=
  ((lines text).dropWhile fun line => !isDashLine line).flatten

/-- The text from the next line on that opens a record, the first line apart. -/
def nextRecord (text : List Char) : List Char := fromRecord (skipLine text)

/-- The loop that reads records, over the catalog and the text that is left. A record goes on up to
the next one. -/
def recordLoop : Loop (Catalog × List Char) (Except Fault Catalog)
  | (catalog, text) =>
    if text.isEmpty then .leave (.ok catalog)
    else
      match ofRecord (text.take (text.length - (nextRecord text).length)) (nextRecord text) with
      | .error fault => .leave (.error fault)
      | .ok entry => .again (catalog.describe entry, nextRecord text)

/-- The loop that reads the spellings after the first one of a record, over those found and the text
that is left. -/
def spellingLoop : Loop (List Mention × List Char) (List Mention × List Char)
  | (found, text) =>
    match separator? text with
    | none => .leave (found, text)
    | some next =>
      match spelling? next with
      | none => .leave (found, text)
      | some (mention, rest) => .again (found ++ [mention], rest)

/-- Every turn over the spellings of a record reads what sets them apart. -/
theorem spellingLoop_progresses : spellingLoop.Progresses Prod.snd := by
  rintro ⟨found, text⟩ next turn
  simp only [spellingLoop] at turn
  split at turn
  · contradiction
  · next apart =>
    split at turn
    · contradiction
    · next read =>
      obtain rfl := Turn.again.inj turn
      exact (separator?_advances apart).more (spelling?_suffix read)

/-- The loop over the spellings of a record ends with those found before and those that follow. -/
theorem spellingLoop_ends {bound : Nat} (found : List Mention) {text : List Char}
    (enough : text.length ≤ bound) :
    spellingLoop.Ends (found, text) ((moreSpellings bound text).map (found ++ ·) id) := by
  induction bound generalizing found text with
  | zero =>
    obtain rfl := List.length_eq_zero_iff.1 (Nat.le_zero.1 enough)
    exact .leave (by simp [spellingLoop, separator?, blanks?, moreSpellings])
  | succ bound ih =>
    rw [moreSpellings]
    cases apart : separator? text with
    | none => exact .leave (by simp [spellingLoop, apart])
    | some next =>
      dsimp only
      rcases read : spelling? next with _ | ⟨mention, rest⟩
      · exact .leave (by simp [spellingLoop, apart, read])
      · have turn : spellingLoop (found, text) = .again (found ++ [mention], rest) := by
          simp [spellingLoop, apart, read]
        have shorter := ((separator?_advances apart).more (spelling?_suffix read)).shorter
        have ends := @ih (found ++ [mention]) rest (by omega)
        refine .again turn ?_
        simpa [Prod.map] using ends

/-- Whether the first line of a text opens a record does not depend on what ends that line. -/
theorem isDashLine_firstLine {text line : List Char} {later : List (List Char)}
    (first : lines text = line :: later) : isDashLine (firstLine text) = isDashLine line := by
  obtain ⟨ending, rfl, white⟩ := firstLine_of_lines first
  rw [isDashLine, isDashLine, skipWhite_append white]
  split
  · next none => rw [none]
  · next some => rw [List.head?_append_of_ne_nil _ some]

/-- Every turn over the lines before a record skips a line. -/
theorem leadingLoop_progresses : leadingLoop.Progresses id := by
  intro text next turn
  simp only [leadingLoop] at turn
  split at turn
  · next leads =>
    obtain rfl := Turn.again.inj turn
    exact skipLine_advances (by rintro rfl; contradiction)
  · contradiction

/-- The loop over the lines before a record ends with the text from the first record on. -/
theorem leadingLoop_ends (text : List Char) : leadingLoop.Ends text (fromRecord text) := by
  induction size : text.length using Nat.strongRecOn generalizing text with
  | ind length ih =>
    cases first : lines text with
    | nil =>
      have flat := lines_flatten text
      rw [first] at flat
      subst flat
      exact .leave rfl
    | cons line later =>
      have filled : text ≠ [] := by
        rintro rfl
        contradiction
      have tail := lines_skipLine text
      rw [first, List.tail_cons] at tail
      have opens := isDashLine_firstLine first
      by_cases dash : isDashLine line = true
      · have whole : fromRecord text = text := by
          rw [fromRecord, first, List.dropWhile_cons_of_neg (by simp [dash]), ← first,
            lines_flatten]
        rw [whole]
        exact .leave (by simp [leadingLoop, opens, dash])
      · have turn : leadingLoop text = .again (skipLine text) := by
          simp [leadingLoop, filled, opens, dash]
        have same : fromRecord text = fromRecord (skipLine text) := by
          rw [fromRecord, fromRecord, first, tail, List.dropWhile_cons_of_pos (by simp [dash])]
        rw [same]
        exact .again turn (ih _ (size ▸ (skipLine_advances filled).shorter) _ rfl)

/-- The text from a record on ends the text. -/
theorem fromRecord_suffix (text : List Char) : fromRecord text <:+ text := by
  obtain ⟨front, same⟩ := List.dropWhile_suffix (fun line => !isDashLine line) (l := lines text)
  have flat := lines_flatten text
  rw [← same, List.flatten_append] at flat
  exact ⟨front.flatten, flat⟩

/-- The next record begins later in a text that is not at its end. -/
theorem nextRecord_advances {text : List Char} (filled : text ≠ []) :
    Advances text (nextRecord text) :=
  (skipLine_advances filled).more (fromRecord_suffix (skipLine text))

/-- Every turn over the records reads a record. -/
theorem recordLoop_progresses : recordLoop.Progresses Prod.snd := by
  rintro ⟨catalog, text⟩ next turn
  simp only [recordLoop] at turn
  split at turn
  · contradiction
  · next filled =>
    split at turn
    · contradiction
    · obtain rfl := Turn.again.inj turn
      exact nextRecord_advances (by simpa using filled)

/-- The lines from the first record on hold all records. -/
theorem split_dropWhile (list : List (List Char)) :
    (split (list.dropWhile fun line => !isDashLine line)).2 = (split list).2 := by
  induction list with
  | nil => rfl
  | cons line later ih =>
    by_cases dash : isDashLine line = true
    · rw [List.dropWhile_cons_of_neg (by simp [dash])]
    · rw [List.dropWhile_cons_of_pos (by simp [dash]), ih, split]
      simp [dash]

/-- Nothing comes before the records of lines of which the first opens one. -/
theorem leading_of_head {list : List (List Char)}
    (opens : ∀ line ∈ list.head?, isDashLine line = true) : (split list).1 = [] := by
  cases list with
  | nil => rfl
  | cons line later => exact leading_of_isDashLine (opens line rfl) later

/-- The lines from the first record on are lines of the text. -/
theorem lines_fromRecord (text : List Char) :
    lines (fromRecord text) = (lines text).dropWhile fun line => !isDashLine line := by
  obtain ⟨front, same⟩ := List.dropWhile_suffix (fun line => !isDashLine line) (l := lines text)
  have lined := lined_lines text
  rw [← same] at lined
  exact lined.of_append.lines_flatten

/-- The text from the first record on begins with a line that opens one. -/
theorem opens_fromRecord (text : List Char) :
    ∀ line ∈ (lines (fromRecord text)).head?, isDashLine line = true := by
  intro line first
  rw [lines_fromRecord] at first
  have outside := List.head?_dropWhile_not (fun line => !isDashLine line) (lines text)
  rw [first] at outside
  simpa using outside

/-- The records of a text are those from the first one on. -/
theorem split_fromRecord (text : List Char) :
    (split (lines (fromRecord text))).2 = (split (lines text)).2 := by
  rw [lines_fromRecord, split_dropWhile]

/-- A text describes the same from its first record on. -/
theorem ofLines_fromRecord (text : List Char) :
    ofLines (lines (fromRecord text)) = ofLines (lines text) := by
  rw [ofLines, ofLines, split_fromRecord]

/-- The records of a text make up the text from the first one on. -/
theorem flatten_split (text : List Char) : (split (lines text)).2.flatten = fromRecord text := by
  have flat := split_flatten (lines (fromRecord text))
  rwa [leading_of_head (opens_fromRecord text), List.nil_append, split_fromRecord,
    lines_flatten] at flat

/-- A text that opens a record is this record and the text from the next one on. -/
theorem ofLines_record {text : List Char} (filled : text ≠ [])
    (opens : ∀ line ∈ (lines text).head?, isDashLine line = true) :
    ofLines (lines text) =
      match ofRecord (text.take (text.length - (nextRecord text).length)) (nextRecord text) with
      | .error fault => .error fault
      | .ok first => (ofLines (lines (nextRecord text))).map (first :: ·) := by
  cases first : lines text with
  | nil => exact absurd first (lines_ne_nil filled)
  | cons line later =>
    have tail := lines_skipLine text
    rw [first] at opens tail
    rw [List.tail_cons] at tail
    have next : (split later).2.flatten = nextRecord text := tail ▸ flatten_split (skipLine text)
    have whole : line ++ (split later).1 ++ nextRecord text = text := by
      rw [← next, List.append_assoc, split_flatten, ← List.flatten_cons, ← first, lines_flatten]
    have record := take_own (line ++ (split later).1) (nextRecord text)
    rw [whole] at record
    have others : ofLines (lines (nextRecord text)) = ofRecords (split later).2 := by
      rw [nextRecord, ofLines_fromRecord, tail, ofLines]
    rw [record, others, ofLines, split]
    simp only [opens line rfl, if_true]
    rw [ofRecords, next]
    cases ofRecord (line ++ (split later).1) (nextRecord text) with
    | error fault => rfl
    | ok entry => cases ofRecords (split later).2 <;> rfl

/-- The loop over the records ends with the catalog in which they are described. -/
theorem recordLoop_ends (catalog : Catalog) {text : List Char}
    (opens : ∀ line ∈ (lines text).head?, isDashLine line = true) :
    recordLoop.Ends (catalog, text) ((ofLines (lines text)).map catalog.describeAll) := by
  induction size : text.length using Nat.strongRecOn generalizing catalog text with
  | ind length ih =>
    by_cases filled : text = []
    · subst filled
      exact .leave rfl
    · rw [ofLines_record filled opens]
      rcases read : ofRecord (text.take (text.length - (nextRecord text).length))
        (nextRecord text) with fault | entry
      · exact .leave (by simp [recordLoop, filled, read, Except.map])
      · have turn : recordLoop (catalog, text) = .again (catalog.describe entry, nextRecord text) := by
          simp [recordLoop, filled, read]
        have shorter := (nextRecord_advances filled).shorter
        have opens : ∀ line ∈ (lines (nextRecord text)).head?, isDashLine line = true :=
          opens_fromRecord (skipLine text)
        have ends := ih _ (size ▸ shorter) (catalog.describe entry) opens rfl
        refine .again turn ?_
        rcases more : ofLines (lines (nextRecord text)) with fault | entries <;>
          · rw [more] at ends
            exact ends

end Synopsis.Description

import Synopsis.Proofs.Description.Progress
import Synopsis.Proofs.Description.Refused
import Synopsis.Proofs.Position.Slice
import Synopsis.Proofs.Usage.Span

/-!
# Slices of records

A record is read here with byte offsets into the whole text. Its end is found first, before its
spellings are read, and its default value is looked for in the slice from where the spellings end
up to there. Each slice and each difference of offsets has a result only if it is in range.

All of them are in range, for every text and wherever a record begins. No reader of a record passes
the end of a line, so the lines after the one that is left are the same before and after it has
read, and the next record begins in them.
-/
namespace Synopsis.Description

open Text
open Position (byteSize byteSize_append byteSize_pos offsetOf less? sliceFrom? sliceTo? placeOf?)
open Usage (Mention)

/-! ## Reading with offsets -/

/-- The line at an offset, without the line break that ends it. -/
def currentLine? (text : List Char) (offset : Nat) : Option (List Char) := do
  let rest ← sliceFrom? text offset
  let line ← sliceTo? rest ((placeOf? '\n' rest).getD (byteSize rest))
  return line.rdropWhile fun c => c = '\r'

/-- The offset after the line at an offset, which is no further than the end of the text. -/
def skipLine? (text : List Char) (offset : Nat) : Option Nat := do
  let rest ← sliceFrom? text offset
  let size := match placeOf? '\n' rest with
    | some feed => feed + 1
    | none => byteSize rest
  return min (offset + size) (byteSize text)

/-- The offset of the first line, from the one at an offset on, that opens a record, or else of the
end of the text. The number bounds how many lines are looked at. -/
def dashLineFrom? (text : List Char) : Nat → Nat → Option Nat
  | 0, _ => none
  | bound + 1, offset =>
    if byteSize text ≤ offset then some (byteSize text)
    else do
      let line ← currentLine? text offset
      if isDashLine line then return offset
      dashLineFrom? text bound (← skipLine? text offset)

/-- The offset of the next line that opens a record after the line at an offset. -/
def nextDashLine? (text : List Char) (offset : Nat) : Option Nat := do
  dashLineFrom? text (text.length + 1) (← skipLine? text offset)

/-- The offsets where the first tag begins and where its value does. -/
def tagAt? (body : List Char) : Option (Nat × Nat) :=
  (findTag body).map (Prod.map (offsetOf body) (offsetOf body))

/-- The default value of a record that ends at an offset, looked for from an offset on. -/
def fallbackAt? (text : List Char) (start recordEnd : Nat) :
    Option (Except Diagnostic (Option String)) := do
  let rest ← sliceFrom? text start
  let body ← sliceTo? rest (← less? recordEnd start)
  match tagAt? body with
  | none => return .ok none
  | some (tagStart, tagEnd) =>
    let value ← sliceFrom? body tagEnd
    match placeOf? ']' value with
    | some close => return .ok (some (String.ofList (trimWhite (← sliceTo? value close))))
    | none =>
      return .error ⟨.atByte (String.ofList text) (start + tagStart), .unclosedDefault⟩

/-- The offset after moving on from one offset to another one, which is not before it. The end of
the text is not passed. -/
def seekOn? (text : List Char) (start target : Nat) : Option Nat := do
  let _ ← less? target start
  return min target (byteSize text)

/-- The entry that the record at an offset describes, and the offset of the next record. -/
def recordAt? (text : List Char) (start : Nat) : Option (Except Diagnostic (Entry × Nat)) := do
  let recordEnd ← nextDashLine? text start
  match spellings (← sliceFrom? text start) with
  | .error fault => return .error (fault.diagnostic text)
  | .ok (mentions, rest) =>
    match ← fallbackAt? text (offsetOf text rest) recordEnd with
    | .error diagnostic => return .error diagnostic
    | .ok found => return .ok (entry mentions found, ← seekOn? text (offsetOf text rest) recordEnd)

/-! ## The end of a record -/

/-- The line at the place of what is left of a text is the first one of what is left. -/
theorem currentLine?_offsetOf {text rest : List Char} (suffix : rest <:+ text) :
    currentLine? text (offsetOf text rest) = some (firstLine rest) := by
  simp only [currentLine?, Position.sliceFrom?_offsetOf suffix, Position.placeOf?_getD,
    Position.sliceTo?_takeWhile, Option.bind_eq_bind, Option.bind_some]
  rfl

/-- Skipping the line at the place of what is left of a text leads to the place after it. -/
theorem skipLine?_offsetOf {text rest : List Char} (suffix : rest <:+ text) :
    skipLine? text (offsetOf text rest) = some (offsetOf text (skipLine rest)) := by
  have size : (match placeOf? '\n' rest with
      | some feed => feed + 1
      | none => byteSize rest) = offsetOf rest (skipLine rest) := by
    by_cases feed : '\n' ∈ rest
    · obtain ⟨line, later, rfl, single⟩ := List.eq_append_cons_of_mem feed
      have skipped : skipLine (line ++ '\n' :: later) = later := skipLine_append single _
      have joined := Position.offsetOf_append (line ++ ['\n']) later
      rw [List.append_assoc, byteSize_append] at joined
      rw [Position.placeOf?_append single, skipped]
      exact joined.symm
    · have skipped := skipLine_append feed []
      rw [List.append_nil] at skipped
      rw [placeOf?, if_neg feed, skipped]
      rfl
  have sum := Position.offsetOf_add suffix (skipLine_suffix rest)
  have inside : offsetOf text (skipLine rest) ≤ byteSize text := Position.offsetOf_le _ _
  simp only [skipLine?, Position.sliceFrom?_offsetOf suffix, Option.bind_eq_bind, Option.bind_some,
    size, sum, Nat.min_eq_left inside]
  rfl

/-- With enough lines to look at, the first line that opens a record is found where it begins. -/
theorem dashLineFrom?_offsetOf {bound : Nat} {text rest : List Char} (suffix : rest <:+ text)
    (enough : rest.length < bound) :
    dashLineFrom? text bound (offsetOf text rest) = some (offsetOf text (fromRecord rest)) := by
  induction bound generalizing rest with
  | zero => contradiction
  | succ bound ih =>
    have ends := leadingLoop_ends rest
    rw [dashLineFrom?]
    by_cases empty : rest = []
    · subst empty
      exact if_pos (Nat.le_refl (byteSize text))
    · have left : offsetOf text rest < byteSize text := by
        have positive := byteSize_pos empty
        obtain ⟨front, rfl⟩ := suffix
        rw [Position.offsetOf_append, byteSize_append]
        omega
      rw [if_neg (Nat.not_le.2 left), currentLine?_offsetOf suffix, Option.bind_eq_bind,
        Option.bind_some]
      by_cases opens : isDashLine (firstLine rest) = true
      · have turn : leadingLoop rest = .leave rest := by simp [leadingLoop, opens]
        rw [if_pos opens, ends.unique (.leave turn)]
        rfl
      · have turn : leadingLoop rest = .again (skipLine rest) := by
          simp [leadingLoop, opens, empty]
        have shorter := (skipLine_advances empty).shorter
        rw [if_neg opens, ends.unique (.again turn (leadingLoop_ends _)),
          skipLine?_offsetOf suffix, Option.bind_eq_bind, Option.bind_some]
        exact ih ((skipLine_suffix rest).trans suffix) (by omega)

/-- The end of a record is found where the next one begins. -/
theorem nextDashLine?_offsetOf {text rest : List Char} (suffix : rest <:+ text) :
    nextDashLine? text (offsetOf text rest) = some (offsetOf text (nextRecord rest)) := by
  have later := (skipLine_suffix rest).trans suffix
  rw [nextDashLine?, skipLine?_offsetOf suffix, Option.bind_eq_bind, Option.bind_some]
  exact dashLineFrom?_offsetOf later (Nat.lt_succ_of_le later.length_le)

/-! ## The readers of a record -/

/-- What the readers of a record may leave of a text, in any order and number. -/
inductive Reaches (start : List Char) : List Char → Prop where
  /-- Nothing has been read. -/
  | here : Reaches start start
  /-- Blanks have been skipped. -/
  | blanks {place : List Char} (before : Reaches start place) : Reaches start (skipBlanks place)
  /-- A spelling has been read. -/
  | spelling {place rest : List Char} {found : Mention} (before : Reaches start place)
      (read : spelling? place = some (found, rest)) : Reaches start rest
  /-- A placeholder has been read, with the sign that joins it. -/
  | value {place rest : List Char} (before : Reaches start place)
      (read : Usage.value? place = some rest) : Reaches start rest
  /-- What sets two spellings apart has been read. -/
  | separator {place rest : List Char} (before : Reaches start place)
      (read : separator? place = some rest) : Reaches start rest

/-- A spelling is read within a line. -/
theorem within_spelling? {text rest : List Char} {found : Mention}
    (read : spelling? text = some (found, rest)) : Within text rest := by
  unfold spelling? at read
  split at read
  · next long =>
    obtain rfl := Option.some.inj read
    exact (Usage.spans_longOption? long).within Usage.inline_isPhraseChar
  · exact (Usage.spans_shortOption? read).within Usage.inline_isPhraseChar

/-- Blanks are skipped within a line. -/
theorem within_skipBlanks (text : List Char) : Within text (skipBlanks text) :=
  (spans_skipBlanks text).within (by decide)

/-- What sets two spellings apart is read within a line. -/
theorem within_separator? {text rest : List Char} (read : separator? text = some rest) :
    Within text rest := by
  unfold separator? at read
  split at read
  · next left =>
    obtain rfl := Option.some.inj read
    exact Within.trans ⟨[','], rfl, by decide, by decide⟩ (within_skipBlanks left)
  · cases text with
    | nil => contradiction
    | cons c left =>
      rw [blanks?] at read
      split at read
      · next blank =>
        obtain rfl := Option.some.inj read
        rw [← skipBlanks_cons blank]
        exact within_skipBlanks (c :: left)
      · contradiction

/-- The readers of a record stay within the line. -/
theorem Reaches.within {start place : List Char} (reaches : Reaches start place) :
    Within start place := by
  induction reaches with
  | here => exact within_refl start
  | blanks _ ih => exact ih.trans (within_skipBlanks _)
  | spelling _ read ih => exact ih.trans (within_spelling? read)
  | value _ read ih => exact ih.trans ((Usage.spans_value? read).within Usage.inline_isPhraseChar)
  | separator _ read ih => exact ih.trans (within_separator? read)

/-- What is left after later spellings has been reached. -/
theorem Reaches.moreSpellings {start place : List Char} (reaches : Reaches start place)
    (bound : Nat) : Reaches start (moreSpellings bound place).2 := by
  induction bound generalizing place with
  | zero => exact reaches
  | succ bound ih =>
    rw [Description.moreSpellings]
    split
    · exact reaches
    · next apart =>
      split
      · exact reaches
      · next read => exact ih (.spelling (.separator reaches apart) read)

/-- What is left after the spellings of a record has been reached. -/
theorem reaches_spellings {start rest : List Char} {mentions : List Mention}
    (read : spellings start = .ok (mentions, rest)) : Reaches start rest := by
  simp only [spellings] at read
  split at read
  · contradiction
  · next one =>
    obtain ⟨-, rfl⟩ := ok_pair_inj read
    exact (Reaches.spelling (.blanks .here) one).moreSpellings _

/-- The next record is the same for what the readers of a record leave. -/
theorem Reaches.nextRecord {start place : List Char} (reaches : Reaches start place) :
    nextRecord place = nextRecord start := by
  obtain ⟨read, rfl, single, -⟩ := reaches.within
  rw [Description.nextRecord, Description.nextRecord, skipLine_append single]

/-- The next record begins in what the readers of a record leave. -/
theorem Reaches.nextRecord_suffix {start place : List Char} (reaches : Reaches start place) :
    Description.nextRecord start <:+ place := by
  rw [← reaches.nextRecord]
  exact (fromRecord_suffix _).trans (skipLine_suffix place)

/-! ## The default value -/

/-- A result with its fault at its place in the whole text. -/
def located {α : Type} (text : List Char) (result : Except Fault α) : Except Diagnostic α :=
  result.mapError fun fault => fault.diagnostic text

/-- The default value in what is left of a record is the one found with offsets. -/
theorem fallbackAt?_offsetOf {text body later : List Char} (suffix : body ++ later <:+ text) :
    fallbackAt? text (offsetOf text (body ++ later)) (offsetOf text later) =
      some (located text ((fallback body).mapError (Fault.followedBy · later))) := by
  have own : later <:+ body ++ later := List.suffix_append body later
  have slice : sliceTo? (body ++ later) (byteSize body) = some body :=
    Position.sliceTo?_eq_some_iff.2 ⟨later, rfl, rfl⟩
  simp only [fallbackAt?, Position.sliceFrom?_offsetOf suffix, Position.less?_offsetOf suffix own,
    Position.offsetOf_append, slice, Option.bind_eq_bind, Option.bind_some]
  rw [fallback, tagAt?]
  cases found : findTag body with
  | none => rfl
  | some pair =>
    obtain ⟨tag, value⟩ := pair
    obtain ⟨between, opening, rfl, rfl, -, -⟩ := exists_of_findTag found
    have inside : value <:+ between ++ (opening ++ value) :=
      (List.suffix_append opening value).trans (List.suffix_append between _)
    simp only [Option.map_some, Prod.map, Position.sliceFrom?_offsetOf inside, Option.bind_some]
    rw [placeOf?]
    by_cases closed : ']' ∈ value
    · simp only [if_pos closed, Position.sliceTo?_takeWhile, Option.bind_some]
      rfl
    · have first : opening ++ value ++ later <:+ between ++ (opening ++ value) ++ later := by
        rw [List.append_assoc between]
        exact List.suffix_append _ _
      have place : offsetOf (between ++ (opening ++ value)) (opening ++ value) =
          offsetOf (between ++ (opening ++ value) ++ later) (opening ++ value ++ later) := by
        rw [List.append_assoc between, Position.offsetOf_append, Position.offsetOf_append]
      simp only [if_neg closed]
      rw [place, Position.offsetOf_add suffix first, Position.atByte_offsetOf (first.trans suffix)]
      rfl

/-! ## Records -/

/-- Moving on from what the readers of a record leave to the next record is in range. -/
theorem Reaches.seekOn? {text start place : List Char} (reaches : Reaches start place)
    (suffix : start <:+ text) :
    seekOn? text (offsetOf text place) (offsetOf text (Description.nextRecord start)) =
      some (offsetOf text (Description.nextRecord start)) := by
  have left := reaches.within.suffix.trans suffix
  have inside : offsetOf text (Description.nextRecord start) ≤ byteSize text :=
    Position.offsetOf_le _ _
  simp only [Description.seekOn?, Position.less?_offsetOf left reaches.nextRecord_suffix,
    Option.bind_eq_bind, Option.bind_some, Nat.min_eq_left inside]
  rfl

/-- The record that is read with offsets is the one up to the next record. -/
theorem recordAt?_offsetOf {text start record : List Char} (suffix : start <:+ text)
    (split : start = record ++ nextRecord start) :
    recordAt? text (offsetOf text start) =
      some (located text
        ((ofRecord record (nextRecord start)).map (·, offsetOf text (nextRecord start)))) := by
  simp only [recordAt?, nextDashLine?_offsetOf suffix, Position.sliceFrom?_offsetOf suffix,
    Option.bind_eq_bind, Option.bind_some]
  rw [ofRecord, ← split]
  cases spelled : spellings start with
  | error fault => rfl
  | ok found =>
    obtain ⟨mentions, rest⟩ := found
    have reaches := reaches_spellings spelled
    have seek := reaches.seekOn? suffix
    have left := reaches.within.suffix.trans suffix
    obtain ⟨body, rfl⟩ := reaches.nextRecord_suffix
    dsimp only
    rw [fallbackAt?_offsetOf left, take_own, Option.bind_some]
    cases fallback body with
    | error fault => rfl
    | ok value =>
      simp only [seek]
      rfl

/-- Nothing is out of range where a record is read, in any text and from any place on. The end of
the record is found after its beginning and within the text. Whatever the readers of the record have
read, they stop between the two: the default value is found with offsets that are all in range and
is the one in what is left of the record, and the way from there to the next record leads forwards.
So the record is read as the text up to the next record. -/
theorem record_in_range {text start : List Char} (suffix : start <:+ text) (filled : start ≠ []) :
    ∃ recordEnd, nextDashLine? text (offsetOf text start) = some recordEnd ∧
      sliceFrom? text recordEnd = some (nextRecord start) ∧
      offsetOf text start < recordEnd ∧ recordEnd ≤ byteSize text ∧
      (∀ place, Reaches start place → ∃ body, place = body ++ nextRecord start ∧
        offsetOf text start ≤ offsetOf text place ∧ offsetOf text place ≤ recordEnd ∧
        less? recordEnd (offsetOf text place) = some (byteSize body) ∧
        fallbackAt? text (offsetOf text place) recordEnd =
          some (located text ((fallback body).mapError (Fault.followedBy · (nextRecord start)))) ∧
        seekOn? text (offsetOf text place) recordEnd = some recordEnd) ∧
      ∃ record, start = record ++ nextRecord start ∧
        recordAt? text (offsetOf text start) =
          some (located text ((ofRecord record (nextRecord start)).map (·, recordEnd))) := by
  have advances := nextRecord_advances filled
  have later : nextRecord start <:+ text := advances.suffix.trans suffix
  have less : offsetOf text start < offsetOf text (nextRecord start) :=
    Position.offsetOf_lt suffix advances
  obtain ⟨record, split⟩ := advances.suffix
  refine ⟨offsetOf text (nextRecord start), nextDashLine?_offsetOf suffix,
    Position.sliceFrom?_offsetOf later, less, Position.offsetOf_le _ _, fun place reaches => ?_,
    record, split.symm, recordAt?_offsetOf suffix split.symm⟩
  have left := reaches.within.suffix.trans suffix
  have first := Position.offsetOf_mono suffix reaches.within.suffix
  have last := Position.offsetOf_mono left reaches.nextRecord_suffix
  have difference := Position.less?_offsetOf left reaches.nextRecord_suffix
  have seek := reaches.seekOn? suffix
  obtain ⟨body, rfl⟩ := reaches.nextRecord_suffix
  rw [Position.offsetOf_append] at difference
  exact ⟨body, rfl, first, last, difference, fallbackAt?_offsetOf left, seek⟩

/-- A record begins after a carriage return that ends no line, and the characters around its tag
take up two bytes each. -/
theorem record_in_range_return :
    ∃ recordEnd, nextDashLine? "é\r-o FILE ü [Default: ß]\n more\n-x".toList 3 = some recordEnd ∧
      3 < recordEnd ∧ recordEnd ≤ byteSize "é\r-o FILE ü [Default: ß]\n more\n-x".toList ∧
      fallbackAt? "é\r-o FILE ü [Default: ß]\n more\n-x".toList 10 recordEnd =
        some (.ok (some "ß")) := by
  have general : ∀ text start place body : List Char, start <:+ text → start ≠ [] →
      spelling? start = some (⟨.short 'o', true⟩, place) → place = body ++ nextRecord start →
      fallback body = .ok (some "ß") →
      ∃ recordEnd, nextDashLine? text (offsetOf text start) = some recordEnd ∧
        offsetOf text start < recordEnd ∧ recordEnd ≤ byteSize text ∧
        fallbackAt? text (offsetOf text place) recordEnd = some (.ok (some "ß")) := by
    intro text start place body suffix filled read same value
    obtain ⟨recordEnd, found, -, later, inside, places, -⟩ := record_in_range suffix filled
    obtain ⟨own, also, -, -, -, slice, -⟩ := places place (.spelling .here read)
    rw [← List.append_cancel_right (same.symm.trans also), value] at slice
    exact ⟨recordEnd, found, later, inside, slice⟩
  exact general "é\r-o FILE ü [Default: ß]\n more\n-x".toList
    "-o FILE ü [Default: ß]\n more\n-x".toList " ü [Default: ß]\n more\n-x".toList
    " ü [Default: ß]\n more\n".toList ⟨"é\r".toList, by decide +kernel⟩ (by decide +kernel)
    (by decide +kernel) (by decide +kernel) (by decide +kernel)

end Synopsis.Description

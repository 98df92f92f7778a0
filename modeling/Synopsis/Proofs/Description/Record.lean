import Synopsis.Description
import Synopsis.Proofs.Except
import Synopsis.Proofs.Usage.Transparent

/-!
# Records

A record with a line feed in it describes the same entry whatever records come after it: its
spellings end before the line feed, and its default value is only looked for in the record. So the
records of more lines add their entries to those of the lines before, as long as the first of these
lines opens a record.
-/
namespace Synopsis.Description

open Text
open Usage (Mention mention longOption? shortOption?)

section KeepsLines

variable {f : List Char → List Char} (keeps : KeepsLines f)

include keeps

/-- A spelling is read within a line. -/
theorem spelling?_keeps (text : List Char) :
    spelling? (f text) = (spelling? text).map (Prod.map id f) := by
  rw [spelling?, spelling?, Usage.longOption?_keeps keeps.words,
    Usage.shortOption?_keeps keeps.words]
  cases longOption? text <;> rfl

/-- What sets spellings apart is read within a line. -/
theorem separator?_keeps : ∀ text, separator? (f text) = (separator? text).map f := by
  refine keeps.lines.reads (fun stops => by cases stops <;> rfl) fun c rest => ?_
  by_cases comma : c = ','
  · subst comma
    exact congrArg some (skipBlanks_keeps keeps rest)
  · have none : ∀ {left}, separator? (c :: left) = blanks? (c :: left) := by
      intro left
      simp [separator?, comma]
    rw [none, none, blanks?, blanks?, skipBlanks_keeps keeps]
    split <;> rfl

/-- Later spellings are read within a line. -/
theorem moreSpellings_keeps (bound : Nat) (text : List Char) :
    moreSpellings bound (f text) = (moreSpellings bound text).map id f := by
  induction bound generalizing text with
  | zero => rfl
  | succ bound ih =>
    rw [moreSpellings, moreSpellings, separator?_keeps keeps]
    cases separator? text with
    | none => rfl
    | some next =>
      simp only [Option.map_some, spelling?_keeps keeps]
      cases spelling? next with
      | none => rfl
      | some found =>
        simp only [Option.map_some, Prod.map, ih]
        rfl

end KeepsLines

/-- What is left after a mention ends the text. -/
theorem mention_suffix (option : Atom) (text : List Char) : (mention option text).2 <:+ text := by
  obtain ⟨value, same, -⟩ := Usage.exists_joined_mention option text
  exact ⟨value, same.symm⟩

/-- What is left after a spelling ends the text. -/
theorem spelling?_suffix {text rest : List Char} {found : Mention}
    (read : spelling? text = some (found, rest)) : rest <:+ text := by
  unfold spelling? at read
  split at read
  · next pair long =>
    obtain rfl := Option.some.inj read
    obtain ⟨phrase, rfl, -⟩ := Usage.phrase_of_longOption? long
    exact List.suffix_append _ _
  · unfold shortOption? at read
    split at read
    · next letter more _ =>
      split at read
      · have left := mention_suffix (.short letter) more
        rw [Option.some.inj read] at left
        exact left.trans ((List.suffix_cons _ _).trans (List.suffix_cons _ _))
      · contradiction
    · contradiction

/-- What sets two spellings apart advances in a text. -/
theorem separator?_advances {text rest : List Char} (read : separator? text = some rest) :
    Advances text rest := by
  unfold separator? at read
  split at read
  · obtain rfl := Option.some.inj read
    exact advances_cons (List.dropWhile_suffix _)
  · exact Usage.blanks?_advances read

/-- What is left after later spellings ends the text. -/
theorem moreSpellings_suffix (bound : Nat) (text : List Char) :
    (moreSpellings bound text).2 <:+ text := by
  induction bound generalizing text with
  | zero => exact List.suffix_refl text
  | succ bound ih =>
    rw [moreSpellings]
    split
    · exact List.suffix_refl text
    · next next apart =>
      split
      · exact List.suffix_refl text
      · next found rest read =>
        have advances := (separator?_advances apart).more (spelling?_suffix read)
        exact (ih rest).trans advances.suffix

/-- There are no more spellings than characters, so any bound above their number gives the same. -/
theorem moreSpellings_bound {bound other : Nat} {text : List Char} (enough : text.length ≤ bound)
    (also : text.length ≤ other) : moreSpellings bound text = moreSpellings other text := by
  induction bound generalizing other text with
  | zero =>
    obtain rfl := List.length_eq_zero_iff.1 (Nat.le_zero.1 enough)
    cases other <;> rfl
  | succ bound ih =>
    cases other with
    | zero =>
      obtain rfl := List.length_eq_zero_iff.1 (Nat.le_zero.1 also)
      rfl
    | succ other =>
      rw [moreSpellings, moreSpellings]
      cases apart : separator? text with
      | none => rfl
      | some next =>
        cases read : spelling? next with
        | none => simp only [read]
        | some found =>
          obtain ⟨mention, rest⟩ := found
          have shorter := ((separator?_advances apart).more (spelling?_suffix read)).shorter
          have same : moreSpellings bound rest = moreSpellings other rest :=
            ih (by omega) (by omega)
          simp only [read, same]

/-- The spellings of a record are read within a line. -/
theorem spellings_keeps {f : List Char → List Char} (keeps : KeepsLines f) (text : List Char) :
    spellings (f text) = Usage.changed f (spellings text) := by
  simp only [spellings, skipBlanks_keeps keeps, spelling?_keeps keeps]
  cases spelling? (skipBlanks text) with
  | none => rfl
  | some found =>
    obtain ⟨first, rest⟩ := found
    have more : moreSpellings (f rest).length (f rest) =
        (moreSpellings rest.length rest).map id f := by
      rw [moreSpellings_bound (Nat.le_refl _) (Nat.le_max_left _ rest.length),
        moreSpellings_keeps keeps,
        moreSpellings_bound (Nat.le_max_right (f rest).length _) (Nat.le_refl _)]
    simp only [Option.map_some, Prod.map, more]
    rfl

/-- What is left after spellings ends the text. -/
theorem spellings_suffix {text rest : List Char} {mentions : List Mention}
    (read : spellings text = .ok (mentions, rest)) : rest <:+ text := by
  have skipped := skipBlanks_suffix text
  simp only [spellings] at read
  split at read
  · contradiction
  · next first left one =>
    obtain ⟨-, rfl⟩ := ok_pair_inj read
    exact (moreSpellings_suffix _ left).trans ((spelling?_suffix one).trans skipped)

/-- A record without spellings is refused after its first blanks. -/
theorem spellings_eq_error {text : List Char} {fault : Fault} (refused : spellings text = .error fault) :
    fault = .expected "short or long option" (skipBlanks text) := by
  simp only [spellings] at refused
  split at refused
  · exact (Except.error.inj refused).symm
  · contradiction

/-- The spellings of a record are read within it, if it has a line feed or is the last one. -/
theorem spellings_append {record later : List Char} (whole : '\n' ∈ record ∨ later = []) :
    spellings (record ++ later) = Usage.changed (· ++ later) (spellings record) := by
  rcases whole with feed | rfl
  · obtain ⟨text, after, rfl⟩ := List.append_of_mem feed
    have inside := spellings_keeps (keepsLines_append (.feed after)) text
    have across := spellings_keeps (keepsLines_append (.feed (after ++ later))) text
    rw [List.append_assoc, List.cons_append, across, inside]
    cases spellings text with
    | ok found => simp [Usage.changed]
    | error fault =>
      obtain ⟨cause, rest⟩ := fault
      cases cause <;> simp [Usage.changed, Fault.changed, Fault.expected]
  · rw [List.append_nil]
    cases spelled : spellings record with
    | ok found => simp [Usage.changed]
    | error fault =>
      obtain rfl := spellings_eq_error spelled
      simp [Usage.changed, Fault.changed, Fault.expected]

/-- What is left of a text that is followed by another one is found by their lengths. -/
theorem take_own (rest later : List Char) :
    (rest ++ later).take ((rest ++ later).length - later.length) = rest := by
  rw [List.length_append, Nat.add_sub_cancel, List.take_left' rfl]

/-- An unclosed tag is what is wrong with a default value. -/
theorem fallback_eq_error {text : List Char} {fault : Fault} :
    fallback text = .error fault ↔
      ∃ tag value, findTag text = some (tag, value) ∧ ']' ∉ value ∧
        fault = ⟨.unclosedDefault, tag⟩ := by
  rw [fallback]
  cases found : findTag text with
  | none => simp
  | some pair =>
    obtain ⟨tag, value⟩ := pair
    dsimp only
    split
    · next closed => simp [closed]
    · next opened => simp [opened, eq_comm]

/-- A record on its own has the default value in what its spellings leave. -/
theorem ofRecord_nil (record : List Char) :
    ofRecord record [] = match spellings record with
      | .error fault => .error fault
      | .ok (mentions, rest) => (fallback rest).map (entry mentions) := by
  rw [ofRecord, List.append_nil]
  cases spellings record with
  | error fault => rfl
  | ok found =>
    obtain ⟨mentions, rest⟩ := found
    have own := take_own rest []
    rw [List.append_nil] at own
    dsimp only
    rw [own]
    cases fallback rest with
    | ok value => rfl
    | error fault =>
      have same : fault.followedBy [] = fault := by rw [Fault.followedBy, List.append_nil]
      exact congrArg Except.error same

/-- A record describes what it does on its own, if it has a line feed or is the last one. -/
theorem ofRecord_eq {record later : List Char} (whole : '\n' ∈ record ∨ later = []) :
    ofRecord record later = (ofRecord record []).mapError (Fault.changed (· ++ later)) := by
  rw [ofRecord_nil, ofRecord, spellings_append whole]
  cases spellings record with
  | error fault => rfl
  | ok found =>
    obtain ⟨mentions, rest⟩ := found
    simp only [Usage.changed, take_own]
    cases tag : fallback rest with
    | ok value => rfl
    | error fault =>
      obtain ⟨tag, value, -, -, rfl⟩ := fallback_eq_error.1 tag
      rfl

/-- A record describes the same entry whatever comes after it. -/
theorem ofRecord_congr {record later : List Char} {entry : Entry} (feed : '\n' ∈ record)
    (read : ofRecord record later = .ok entry) (other : List Char) :
    ofRecord record other = .ok entry := by
  rw [ofRecord_eq (.inl feed)] at read ⊢
  cases alone : ofRecord record [] with
  | error fault =>
    rw [alone] at read
    contradiction
  | ok found =>
    rw [alone] at read
    exact read

/-- The entries of some records, and of more records after them. -/
theorem ofRecords_append {records : List (List Char)} {entries : List Entry}
    (feeds : ∀ record ∈ records, '\n' ∈ record) (read : ofRecords records = .ok entries)
    (more : List (List Char)) :
    ofRecords (records ++ more) = (ofRecords more).map (entries ++ ·) := by
  induction records generalizing entries with
  | nil =>
    obtain rfl := Except.ok.inj read
    cases found : ofRecords more <;> simp only [List.nil_append, found, Except.map]
  | cons record later ih =>
    have ⟨feed, others⟩ := List.forall_mem_cons.1 feeds
    rw [ofRecords] at read
    split at read
    · contradiction
    · next first one =>
      split at read
      · contradiction
      · next found rest =>
        obtain rfl := Except.ok.inj read
        rw [List.cons_append, ofRecords, ofRecord_congr feed one, ih others rest]
        cases ofRecords more <;> rfl

/-- A line that opens a record has nothing before it. -/
theorem leading_of_isDashLine {line : List Char} (opens : isDashLine line = true)
    (later : List (List Char)) : (split (line :: later)).1 = [] := by
  simp only [split, opens, if_true]

/-- Lines that open a record add their records to those before. -/
theorem split_append (lines : List (List Char)) {more : List (List Char)}
    (opens : (split more).1 = []) :
    split (lines ++ more) = ((split lines).1, (split lines).2 ++ (split more).2) := by
  induction lines with
  | nil => exact Prod.ext opens rfl
  | cons line later ih =>
    rw [List.cons_append, split, split, ih]
    by_cases first : isDashLine line = true <;> simp [first]

/-- Records of complete lines have line feeds. -/
theorem feed_mem_of_mem_split {lines : List (List Char)} (feeds : ∀ line ∈ lines, '\n' ∈ line) :
    ∀ record ∈ (split lines).2, '\n' ∈ record := by
  induction lines with
  | nil => exact fun record mem => absurd mem List.not_mem_nil
  | cons line later ih =>
    have ⟨feed, others⟩ := List.forall_mem_cons.1 feeds
    rw [split]
    dsimp only
    split
    · exact List.forall_mem_cons.2 ⟨List.mem_append_left _ feed, ih others⟩
    · exact ih others

/-- Complete lines, and more lines of which the first opens a record, describe the entries of
both. -/
theorem ofLines_append {lines more : List (List Char)} {entries : List Entry}
    (feeds : ∀ line ∈ lines, '\n' ∈ line) (opens : (split more).1 = [])
    (read : ofLines lines = .ok entries) :
    ofLines (lines ++ more) = (ofLines more).map (entries ++ ·) := by
  rw [ofLines, split_append lines opens]
  exact ofRecords_append (feed_mem_of_mem_split feeds) read (split more).2

end Synopsis.Description

import Synopsis.Proofs.Description.Record
import Synopsis.Proofs.Usage.Carriage

/-!
# Records with carriage returns

The records of a text describe the same entries with carriage returns at the ends of lines, but that
a default value that goes over several lines has these carriage returns in it.
-/
namespace Synopsis

/-- The text with a carriage return before each line feed. -/
def Text.crlfString (text : String) : String := String.ofList (crlf text.toList)

/-- The entry with carriage returns in its default value. -/
def Entry.crlf (entry : Entry) : Entry :=
  { entry with fallback := entry.fallback.map Text.crlfString }

namespace Description

open Text

/-- A record is opened by the same line. -/
theorem isDashLine_crlf (line : List Char) : isDashLine (crlf line) = isDashLine line := by
  rw [isDashLine, isDashLine, skipWhite_crlf]
  cases skipWhite line with
  | nil => rfl
  | cons c rest =>
    by_cases feed : c = '\n'
    · rw [feed]
      rfl
    · rw [crlf_cons feed, List.head?_cons, List.head?_cons]

/-- Lines are split into records alike. -/
theorem split_crlf (list : List (List Char)) :
    split (list.map crlf) = (crlf (split list).1, (split list).2.map crlf) := by
  induction list with
  | nil => rfl
  | cons line later ih =>
    rw [List.map_cons, split, split, ih, isDashLine_crlf]
    dsimp only
    rw [← crlf_append]
    split <;> rfl

/-- The first tag is found at the same place. -/
theorem findTag_crlf (text : List Char) :
    findTag (crlf text) = (findTag text).map (Prod.map crlf crlf) := by
  induction text with
  | nil => rfl
  | cons c rest ih =>
    by_cases feed : c = '\n'
    · have bare : findTag (c :: rest) = findTag rest := by
        rw [feed]
        rfl
      have both : findTag (crlf (c :: rest)) = findTag (crlf rest) := by
        rw [feed]
        rfl
      rw [both, bare, ih]
    · have opening : afterFolded? tagOpening (crlf (c :: rest)) =
          (afterFolded? tagOpening (c :: rest)).map crlf :=
        afterFolded?_keeps keepsLines_crlf.lines (·.ends (by decide)) (c :: rest)
      rw [crlf_cons feed] at opening ⊢
      rw [findTag, findTag, opening, ih]
      cases afterFolded? tagOpening (c :: rest) with
      | none => rfl
      | some value => exact congrArg (fun tag => some (tag, crlf value)) (crlf_cons feed rest).symm

/-- A default value has carriage returns in it. -/
theorem fallback_crlf (text : List Char) :
    fallback (crlf text) = ((fallback text).map (Option.map crlfString)).mapError Fault.crlf := by
  rw [fallback, fallback, findTag_crlf]
  cases findTag text with
  | none => rfl
  | some found =>
    obtain ⟨tag, value⟩ := found
    have closing : ']' ∈ crlf value ↔ ']' ∈ value := mem_crlf (by decide) (by decide) value
    have inside : (crlf value).takeWhile (fun c => c ≠ ']') =
        crlf (value.takeWhile fun c => c ≠ ']') := takeWhile_crlf (by decide) (by decide) value
    simp only [Option.map_some, Prod.map, closing]
    split
    · rw [inside, trimWhite_crlf]
      simp [Except.map, Except.mapError, crlfString]
    · rfl

/-- Spellings are read alike. -/
theorem spellings_crlf (text : List Char) :
    spellings (crlf text) =
      ((spellings text).map (Prod.map id crlf)).mapError Fault.crlf := by
  rw [spellings_keeps keepsLines_crlf]
  cases spelled : spellings text with
  | ok found => rfl
  | error fault =>
    obtain rfl := spellings_eq_error spelled
    exact congrArg Except.error (Fault.expected_crlf _ _)

/-- A record on its own describes the same entry. -/
theorem ofRecord_nil_crlf (record : List Char) :
    ofRecord (crlf record) [] = ((ofRecord record []).map Entry.crlf).mapError Fault.crlf := by
  rw [ofRecord_nil, ofRecord_nil, spellings_crlf]
  cases spellings record with
  | error fault => rfl
  | ok found =>
    obtain ⟨mentions, rest⟩ := found
    have value := fallback_crlf rest
    simp only [Except.map, Except.mapError, Prod.map, id] at value ⊢
    rw [value]
    cases fallback rest <;> rfl

/-- A record describes the same entry, if it has a line feed or is the last one. -/
theorem ofRecord_crlf {record later : List Char} (whole : '\n' ∈ record ∨ later = []) :
    ofRecord (crlf record) (crlf later) =
      ((ofRecord record later).map Entry.crlf).mapError Fault.crlf := by
  have whole' : '\n' ∈ crlf record ∨ crlf later = [] := by
    refine whole.imp (fun mem => ?_) fun none => by rw [none]; rfl
    exact List.mem_flatMap.2 ⟨'\n', mem, by decide⟩
  rw [ofRecord_eq whole', ofRecord_nil_crlf, ofRecord_eq whole]
  cases ofRecord record [] with
  | ok found => rfl
  | error fault => exact congrArg Except.error (Usage.changed_append_crlf fault later)

/-- Lines describe the same entries. -/
theorem ofLines_crlf {list : List (List Char)} (lined : Lined list) :
    ofLines (list.map crlf) =
      ((ofLines list).map (List.map Entry.crlf)).mapError Fault.crlf := by
  rw [ofLines, ofLines, split_crlf]
  induction lined with
  | nil => rfl
  | @cons line feed later single ends more ih =>
    rw [split]
    dsimp only
    split
    · have whole : '\n' ∈ line ++ feed ++ (split later).1 ∨ (split later).2.flatten = [] := by
        rcases ends with rfl | ⟨-, -, rfl⟩
        · exact .inl (by simp)
        · exact .inr rfl
      rw [List.map_cons, ofRecords, ofRecords, ← crlf_flatten, ofRecord_crlf whole, ih]
      cases ofRecord (line ++ feed ++ (split later).1) (split later).2.flatten with
      | error fault => rfl
      | ok entry => cases ofRecords (split later).2 <;> rfl
    · exact ih

end Description

end Synopsis

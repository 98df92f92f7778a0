import Synopsis.Proofs.Description.Record
import Synopsis.Proofs.Usage.Refused

/-!
# Refused records

The descriptions of a text are refused in one of two ways. A record has no spelling where it begins,
or the first tag after its spellings is not closed up to the end of the record, which is the next
line that opens one, or the end of the text. A record without a spelling is refused alike with any
lines after it, while an unclosed tag may be closed by them.
-/
namespace Synopsis.Description

open Text

/-- The opening of a tag, in any case. -/
def IsTag (text : List Char) : Prop := text.map Char.toLower = tagOpening

/-- A tag that is not closed in a record among some lines, and what is left from the tag on. -/
inductive Unclosed (list : List (List Char)) : List Char → Prop where
  /-- The record is a run of the lines, and the tag is the first one after its spellings. -/
  | tag {leading others later : List (List Char)} {line between opening value : List Char}
      {mentions : List Usage.Mention} (record : list = leading ++ (line :: others ++ later))
      (opens : isDashLine line = true) (own : ∀ other ∈ others, isDashLine other = false)
      (next : ∀ other ∈ later.head?, isDashLine other = true)
      (spelled : spellings ((line :: others).flatten ++ later.flatten) =
        .ok (mentions, between ++ (opening ++ value) ++ later.flatten))
      (isTag : IsTag opening)
      (first : ∀ front other back, between ++ (opening ++ value) = front ++ (other ++ back) →
        IsTag other → between.length ≤ front.length)
      (unclosed : ']' ∉ value) :
      Unclosed list (opening ++ value ++ later.flatten)

/-- The faults with which the descriptions in some lines are refused. -/
inductive Refused (list : List (List Char)) : Fault → Prop where
  /-- A record has no spelling. -/
  | spelling {fault : Fault} (stands : fault.Stands list.flatten) : Refused list fault
  /-- A tag is not closed. -/
  | unclosed {rest : List Char} (tag : Unclosed list rest) : Refused list ⟨.unclosedDefault, rest⟩

/-- What is left at a fault of the descriptions ends their lines. -/
theorem Refused.left {list : List (List Char)} {fault : Fault} (refused : Refused list fault) :
    fault.rest <:+ list.flatten := by
  cases refused with
  | spelling stands => exact stands.left
  | unclosed tag =>
    cases tag with
    | @tag leading others later line between opening value mentions record _ _ _ spelled =>
      have left := spellings_suffix spelled
      have inside : opening ++ value ++ later.flatten <:+
          between ++ (opening ++ value) ++ later.flatten := by
        rw [List.append_assoc between]
        exact List.suffix_append _ _
      rw [record, List.flatten_append, List.flatten_append]
      exact (inside.trans left).trans (List.suffix_append _ _)

/-- A word in any case that opens a text is followed there by exactly the rest. -/
theorem afterFolded?_eq_some_iff {word text rest : List Char} :
    afterFolded? word text = some rest ↔
      ∃ front, text = front ++ rest ∧ front.map Char.toLower = word := by
  induction word generalizing text with
  | nil => simp [afterFolded?]
  | cons w word ih =>
    cases text with
    | nil => simp [afterFolded?]
    | cons c text =>
      rw [afterFolded?]
      constructor
      · intro read
        split at read
        · next same =>
          obtain ⟨front, rfl, folded⟩ := ih.1 read
          exact ⟨c :: front, rfl, by rw [List.map_cons, folded, same]⟩
        · contradiction
      · rintro ⟨front, split, folded⟩
        cases front with
        | nil => contradiction
        | cons d front =>
          obtain ⟨rfl, rfl⟩ := List.cons.inj split
          obtain ⟨same, more⟩ := List.cons.inj folded
          rw [if_pos same.symm]
          exact ih.2 ⟨front, rfl, more⟩

/-- The first tag of a text is found with what comes before and after its opening. -/
theorem exists_of_findTag {text tag value : List Char} (found : findTag text = some (tag, value)) :
    ∃ between opening, text = between ++ tag ∧ tag = opening ++ value ∧ IsTag opening ∧
      ∀ front other back, text = front ++ (other ++ back) → IsTag other →
        between.length ≤ front.length := by
  induction text with
  | nil => contradiction
  | cons c rest ih =>
    rw [findTag] at found
    split at found
    · next after here =>
      obtain ⟨rfl, rfl⟩ := Prod.mk.inj (Option.some.inj found)
      obtain ⟨opening, split, isTag⟩ := afterFolded?_eq_some_iff.1 here
      exact ⟨[], opening, rfl, split, isTag, fun _ _ _ _ _ => Nat.zero_le _⟩
    · next none =>
      obtain ⟨between, opening, rfl, split, isTag, first⟩ := ih found
      refine ⟨c :: between, opening, rfl, split, isTag, fun front other back cut other' => ?_⟩
      cases front with
      | nil =>
        have here := afterFolded?_eq_some_iff.2 ⟨other, cut, other'⟩
        rw [none] at here
        contradiction
      | cons d front =>
        obtain ⟨-, cut⟩ := List.cons.inj cut
        exact Nat.succ_le_succ (first front other back cut other')

/-- Lines are split at the first one that opens a record. -/
theorem exists_split (list : List (List Char)) :
    ∃ others rest, list = others ++ rest ∧ (∀ other ∈ others, isDashLine other = false) ∧
      (∀ line ∈ rest.head?, isDashLine line = true) ∧ (split list).1 = others.flatten := by
  induction list with
  | nil => exact ⟨[], [], rfl, by simp, by simp, rfl⟩
  | cons line later ih =>
    obtain ⟨others, rest, same, own, next, leading⟩ := ih
    rw [split]
    cases opens : isDashLine line with
    | true => exact ⟨[], line :: later, rfl, by simp, by simpa using opens, rfl⟩
    | false =>
      refine ⟨line :: others, rest, congrArg _ same, List.forall_mem_cons.2 ⟨opens, own⟩, next, ?_⟩
      simp only [Bool.false_eq_true, if_false, leading, List.flatten_cons]

/-- Where a record is refused, it is a run of lines. -/
theorem exists_record {list : List (List Char)} {fault : Fault}
    (read : ofLines list = .error fault) :
    ∃ leading line others later, list = leading ++ (line :: others ++ later) ∧
      isDashLine line = true ∧ (∀ other ∈ others, isDashLine other = false) ∧
      (∀ other ∈ later.head?, isDashLine other = true) ∧
      ofRecord (line :: others).flatten later.flatten = .error fault := by
  induction list with
  | nil => contradiction
  | cons line list ih =>
    -- a record refused among the later lines is one of these lines too
    have further : ofLines list = .error fault →
        ∃ leading first others later, line :: list = leading ++ (first :: others ++ later) ∧
          isDashLine first = true ∧ (∀ other ∈ others, isDashLine other = false) ∧
          (∀ other ∈ later.head?, isDashLine other = true) ∧
          ofRecord (first :: others).flatten later.flatten = .error fault := by
      intro failed
      obtain ⟨leading, first, others, later, rfl, found⟩ := ih failed
      exact ⟨line :: leading, first, others, later, rfl, found⟩
    rw [ofLines, split] at read
    dsimp only at read
    split at read
    · next opens =>
      rw [ofRecords] at read
      split at read
      · next reason failed =>
        obtain rfl := Except.error.inj read
        obtain ⟨others, rest, same, own, next, leading⟩ := exists_split list
        have flat := split_flatten list
        rw [leading, same, List.flatten_append, ← same] at flat
        rw [leading, List.append_cancel_left flat] at failed
        exact ⟨[], line, others, rest, by rw [same]; rfl, opens, own, next, failed⟩
      · split at read
        · next reason failed =>
          obtain rfl := Except.error.inj read
          exact further failed
        · contradiction
    · exact further read

/-- Not all of a text with a line feed is blank. -/
theorem skipBlanks_ne_nil {text : List Char} (feed : '\n' ∈ text) : skipBlanks text ≠ [] := by
  obtain ⟨line, after, rfl⟩ := List.append_of_mem feed
  have skipped : skipBlanks (line ++ '\n' :: after) = skipBlanks line ++ '\n' :: after :=
    skipBlanks_keeps (keepsLines_append (.feed after)) line
  rw [skipped]
  simp

/-- A record without a spelling is refused where it begins, after its blanks. -/
theorem stands_of_spellings {record later : List Char} {fault : Fault}
    (whole : '\n' ∈ record ∨ later = []) (refused : spellings record = .error fault) :
    (fault.changed (· ++ later)).Stands (record ++ later) := by
  obtain rfl := spellings_eq_error refused
  refine (Fault.stands_expected _ (List.suffix_refl record)).changed_append ?_
  rcases whole with feed | rfl
  · exact .inl (skipBlanks_ne_nil feed)
  · exact .inr .nil

/-- Where the descriptions in some lines are refused. -/
theorem refused_of_ofLines {list : List (List Char)} {fault : Fault} (lined : Lined list)
    (read : ofLines list = .error fault) : Refused list fault := by
  obtain ⟨leading, line, others, later, rfl, opens, own, next, failed⟩ := exists_record read
  have lines : Lined (line :: others ++ later) := lined.of_append
  have whole : '\n' ∈ (line :: others).flatten ∨ later.flatten = [] :=
    lines.whole.imp_right fun none => by rw [none]; rfl
  have suffix : (line :: others).flatten ++ later.flatten <:+
      (leading ++ (line :: others ++ later)).flatten := by
    rw [List.flatten_append, List.flatten_append]
    exact List.suffix_append _ _
  rw [ofRecord_eq whole, ofRecord_nil] at failed
  cases spelled : spellings (line :: others).flatten with
  | error met =>
    rw [spelled] at failed
    obtain rfl := Except.error.inj failed
    exact .spelling ((stands_of_spellings whole spelled).of_suffix suffix)
  | ok found =>
    obtain ⟨mentions, rest⟩ := found
    rw [spelled] at failed
    dsimp only at failed
    cases value : fallback rest with
    | ok found =>
      rw [value] at failed
      contradiction
    | error met =>
      rw [value] at failed
      obtain ⟨tag, value, found, unclosed, rfl⟩ := fallback_eq_error.1 value
      obtain rfl := Except.error.inj failed
      obtain ⟨between, opening, rfl, rfl, isTag, first⟩ := exists_of_findTag found
      have joined := spellings_append whole
      rw [spelled] at joined
      exact .unclosed (.tag rfl opens own next joined isTag first unclosed)

/-- A record without a spelling on its first line is refused there with more text, however that is
divided into the record and the records after it. -/
theorem ofRecord_append_refused {line leading later : List Char} {fault : Fault}
    (feed : '\n' ∈ line) (refused : ofRecord (line ++ leading) later = .error fault)
    (known : fault.cause ≠ .unclosedDefault) {more leading' later' : List Char}
    (same : leading' ++ later' = leading ++ later ++ more) :
    ofRecord (line ++ leading') later' = .error (fault.followedBy more) := by
  have spelled : spellings (line ++ (leading ++ later)) = .error fault := by
    rw [ofRecord, List.append_assoc] at refused
    split at refused
    · next reason failed => rw [failed, Except.error.inj refused]
    · split at refused
      · next reason tag =>
        obtain ⟨_, _, -, -, rfl⟩ := fallback_eq_error.1 tag
        obtain rfl := Except.error.inj refused
        exact absurd rfl known
      · contradiction
  have first : ∀ after, spellings (line ++ after) = Usage.changed (· ++ after) (spellings line) :=
    fun after => spellings_append (.inl feed)
  rw [first] at spelled
  rw [ofRecord, List.append_assoc, same, first]
  cases own : spellings line with
  | ok found =>
    rw [own] at spelled
    contradiction
  | error met =>
    obtain rfl := spellings_eq_error own
    rw [own] at spelled
    obtain rfl := Except.error.inj spelled
    have filled : skipBlanks line ++ (leading ++ later) ≠ [] :=
      List.append_ne_nil_of_left_ne_nil (skipBlanks_ne_nil feed) _
    have further : (Fault.expected "short or long option"
          (skipBlanks line ++ (leading ++ later))).followedBy more =
        .expected "short or long option" (skipBlanks line ++ (leading ++ later) ++ more) :=
      Fault.followedBy_expected _ (.inl filled)
    rw [List.append_assoc] at further
    exact congrArg Except.error further.symm

/-- Lines with records have the same lines before the first record with more lines after them. -/
theorem leading_append {list : List (List Char)} (some : (split list).2 ≠ [])
    (more : List (List Char)) : (split (list ++ more)).1 = (split list).1 := by
  induction list with
  | nil => exact absurd rfl some
  | cons line later ih =>
    rw [split] at some
    rw [List.cons_append, split, split]
    dsimp only at some ⊢
    split
    · rfl
    · next other =>
      rw [if_neg other] at some
      rw [ih some]

/-- Complete lines with a record that has no spelling are refused at it with more lines after
them. -/
theorem ofLines_append_refused {list : List (List Char)} {fault : Fault}
    (feeds : ∀ line ∈ list, '\n' ∈ line) (refused : ofLines list = .error fault)
    (known : fault.cause ≠ .unclosedDefault) (more : List (List Char)) :
    ofLines (list ++ more) = .error (fault.followedBy more.flatten) := by
  induction list with
  | nil => contradiction
  | cons line later ih =>
    obtain ⟨feed, others⟩ := List.forall_mem_cons.1 feeds
    have joined : (split (later ++ more)).1 ++ (split (later ++ more)).2.flatten =
        (split later).1 ++ (split later).2.flatten ++ more.flatten := by
      rw [split_flatten, split_flatten, List.flatten_append]
    rw [ofLines, split] at refused
    rw [List.cons_append, ofLines, split]
    dsimp only at refused ⊢
    split at refused
    · next opens =>
      rw [if_pos opens, ofRecords]
      rw [ofRecords] at refused
      split at refused
      · next reason failed =>
        obtain rfl := Except.error.inj refused
        rw [ofRecord_append_refused feed failed known joined]
      · next entry one =>
        split at refused
        · next reason failed =>
          obtain rfl := Except.error.inj refused
          -- a later record is refused, so that this one ends before it in any case
          have some : (split later).2 ≠ [] := fun none => by
            rw [none] at failed
            contradiction
          have record := ofRecord_congr (List.mem_append_left _ feed) one
          have rest : ofRecords (split (later ++ more)).2 = _ := ih others failed
          rw [leading_append some, record, rest]
        · contradiction
    · next other =>
      rw [if_neg other]
      exact ih others refused

end Synopsis.Description

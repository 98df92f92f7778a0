import Synopsis.Proofs.Description.Refused
import Synopsis.Proofs.List
import Synopsis.Proofs.Usage.Option

/-!
# Written records

A record is written with the spellings of one option, each with the placeholder of a value or
without, and then text of any kind in which at most the first tag counts. What is written is what
is read: no blank is taken for the wrong one of the things that it may stand for, which are a join
to a placeholder, a gap between two spellings, and the beginning of a description.
-/
namespace Synopsis.Description

open Text
open Usage (Mention IsValue mention value?)

/-- A spelling of an option in a record, with the placeholder of a value or without. -/
structure Spelling where
  /-- The option in this spelling. -/
  option : Atom
  /-- The placeholder with the sign that joins it, or nothing. -/
  value : List Char
  /-- A spelling is that of an option. -/
  isOption : option.isOption = true
  /-- The letter of a short option is one, and the name of a long option is a name. -/
  formed : option.wellFormed = true
  /-- What stands after the option is a placeholder. -/
  placed : value = [] ∨ IsValue value []

namespace Spelling

/-- The characters of the spelling. -/
def text (spelling : Spelling) : List Char := spelling.option.spell ++ spelling.value

/-- What is read of the spelling. -/
def mention (spelling : Spelling) : Mention := ⟨spelling.option, !spelling.value.isEmpty⟩

end Spelling

/-- What sets a spelling apart from the one before it: a comma and any blanks, or blanks alone. -/
structure Gap where
  /-- The characters of the gap. -/
  text : List Char
  /-- It begins with a comma or a blank, and goes on with blanks. -/
  apart : ∃ c blanks, text = c :: blanks ∧ (c = ',' ∨ isBlank c = true) ∧
    ∀ d ∈ blanks, isBlank d = true

/-- What may stand in a line after the last spelling: nothing, what is left of a line break, or two
blanks or more and a description that does not begin with a hyphen. -/
inductive Ending : List Char → Prop where
  /-- The line ends. -/
  | none : Ending []
  /-- The line ends with a carriage return before its line feed. -/
  | carriage : Ending ['\r']
  /-- A description. -/
  | description {blanks words : List Char} (two : 2 ≤ blanks.length)
      (blank : ∀ c ∈ blanks, isBlank c = true) (single : '\n' ∉ words)
      (noHyphen : (skipBlanks words).head? ≠ some '-') : Ending (blanks ++ words)

/-- The value between the first tag of a text and the bracket that closes it, if there is a tag. -/
inductive Tagged : List Char → Option (List Char) → Prop where
  /-- There is no tag. -/
  | none {text : List Char}
      (absent : ∀ front other back, text = front ++ (other ++ back) → ¬ IsTag other) :
      Tagged text none
  /-- The first tag of the text is closed. -/
  | tag {before opening value after : List Char} (isTag : IsTag opening) (closed : ']' ∉ value)
      (first : ∀ front other back,
        before ++ (opening ++ (value ++ ']' :: after)) = front ++ (other ++ back) →
          IsTag other → before.length ≤ front.length) :
      Tagged (before ++ (opening ++ (value ++ ']' :: after))) (some value)

/-- A record as it is written. -/
structure Record where
  /-- The blanks before the first spelling. -/
  indent : List Char
  /-- The first spelling. -/
  first : Spelling
  /-- The other spellings, each after a gap. -/
  others : List (Gap × Spelling)
  /-- What follows the last spelling in its line. -/
  ending : List Char
  /-- The further lines without their line feeds; the last one is empty if a line feed ends the
  record. -/
  more : List (List Char)
  /-- The value in the first tag, if there is a tag. -/
  value : Option (List Char)
  /-- The record begins with blanks only. -/
  blank : ∀ c ∈ indent, isBlank c = true
  /-- No spelling follows the last one. -/
  ends : Ending ending
  /-- The further lines are single ones. -/
  single : ∀ line ∈ more, '\n' ∉ line
  /-- No further line opens a record. -/
  own : ∀ line ∈ more, isDashLine line = false
  /-- The tag is looked for in all that follows the spellings. -/
  tagged : Tagged (ending ++ more.flatMap ('\n' :: ·)) value

namespace Record

/-- The characters of spellings that come after gaps. -/
def othersText (others : List (Gap × Spelling)) : List Char :=
  others.flatMap fun (gap, spelling) => gap.text ++ spelling.text

/-- The characters of the record. -/
def text (record : Record) : List Char :=
  record.indent ++ (record.first.text ++ othersText record.others) ++ record.ending ++
    record.more.flatMap ('\n' :: ·)

/-- All spellings of the record. -/
def spellings (record : Record) : List Spelling := record.first :: record.others.map Prod.snd

end Record

/-- A text may stand after a spelling: it neither goes on with the name nor gives a placeholder. -/
structure Apart (text : List Char) : Prop where
  /-- No character of a name comes next. -/
  ends : Ends isNameChar text
  /-- No placeholder comes next. -/
  plain : value? text = none

/-- A spelling may end where its line stops. -/
theorem apart_of_stops {text : List Char} (stops : Stops text) : Apart text :=
  ⟨stops.ends (by decide), by cases stops <;> rfl⟩

/-- A spelling may end before a blank after which no placeholder begins. -/
theorem apart_of_isBlank {c d : Char} {text : List Char} (blank : isBlank c = true)
    (next : isBlank d = true ∨ d = '-') : Apart (c :: d :: text) := by
  have none : Usage.placeholder? (d :: text) = none := by
    simp only [isBlank, Bool.or_eq_true, decide_eq_true_eq] at next
    rcases next with (rfl | rfl) | rfl <;> exact Usage.placeholder?_eq_none (by decide) (by decide)
  simp only [isBlank, Bool.or_eq_true, decide_eq_true_eq] at blank
  rcases blank with rfl | rfl
  · exact ⟨ends_cons.2 (by decide), none⟩
  · exact ⟨ends_cons.2 (by decide), Usage.value?_eq_none (by decide) (by decide)⟩

/-- A spelling is followed by a gap and a hyphen where another one follows. -/
theorem Gap.apart_append (gap : Gap) (text : List Char) : Apart (gap.text ++ '-' :: text) := by
  obtain ⟨c, blanks, same, begins, blank⟩ := gap.apart
  rw [same, List.cons_append]
  rcases begins with rfl | first
  · exact ⟨ends_cons.2 (by decide), Usage.value?_eq_none (by decide) (by decide)⟩
  · cases blanks with
    | nil => exact apart_of_isBlank first (.inr rfl)
    | cons d later => exact apart_of_isBlank first (.inl (blank d List.mem_cons_self))

/-- A comma or a blank sets spellings apart, with all blanks after it. -/
theorem separator?_cons {c : Char} {text : List Char} (begins : c = ',' ∨ isBlank c = true) :
    separator? (c :: text) = some (skipBlanks text) := by
  rcases begins with rfl | blank
  · rfl
  · have noComma : c ≠ ',' := by rintro rfl; exact absurd blank (by decide)
    simp [separator?, noComma, blanks?, blank]

/-- A gap before a hyphen is read. -/
theorem Gap.separator? (gap : Gap) (text : List Char) :
    separator? (gap.text ++ '-' :: text) = some ('-' :: text) := by
  obtain ⟨c, blanks, same, begins, blank⟩ := gap.apart
  have skipped : skipBlanks (blanks ++ '-' :: text) = '-' :: text :=
    dropWhile_word blank (ends_cons.2 (by decide))
  rw [same, List.cons_append, separator?_cons begins, skipped]

namespace Spelling

/-- A spelling begins with a hyphen. -/
theorem exists_text (spelling : Spelling) : ∃ rest, spelling.text = '-' :: rest := by
  obtain ⟨option, value, isOption, formed, placed⟩ := spelling
  cases option with
  | short letter => exact ⟨letter :: value, rfl⟩
  | long name => exact ⟨'-' :: (name.toList ++ value), rfl⟩
  | _ => contradiction

variable (spelling : Spelling) {rest : List Char}

/-- The placeholder of a spelling, or that there is none, is read. -/
theorem mention_value (apart : Apart rest) (option : Atom) :
    Usage.mention option (spelling.value ++ rest) = (⟨option, !spelling.value.isEmpty⟩, rest) := by
  rcases spelling.placed with none | ⟨sign, body, same, joins, form⟩
  · rw [none, List.nil_append, Usage.mention_plain apart.plain]
    rfl
  · have form : IsValue spelling.value rest :=
      ⟨sign, body, same, joins, form.imp_right fun capital => ⟨capital.1, apart.ends⟩⟩
    rw [Usage.mention, Usage.value?_eq_some_iff.2 ⟨spelling.value, rfl, form⟩, same]
    rfl

/-- The name of a spelling does not run on into its placeholder. -/
theorem ends_value (apart : Apart rest) : Ends isNameChar (spelling.value ++ rest) := by
  rcases spelling.placed with none | ⟨sign, body, same, joins, -⟩
  · rw [none, List.nil_append]
    exact apart.ends
  · rw [same, List.cons_append, ends_cons]
    rcases joins with rfl | rfl <;> decide

/-- A spelling is read as it is written. -/
theorem spelling?_text (apart : Apart rest) :
    spelling? (spelling.text ++ rest) = some (spelling.mention, rest) := by
  have read := spelling.mention_value apart
  have stops := spelling.ends_value apart
  have formed := spelling.formed
  rw [text, mention, List.append_assoc]
  cases option : spelling.option with
  | short letter =>
    rw [option] at formed
    have noHyphen : letter ≠ '-' := by rintro rfl; exact absurd formed (by decide)
    have letterFirst : letter.isAlpha = true := formed
    simp [Atom.spell, spelling?, Usage.longOption?, noHyphen, Usage.shortOption?, letterFirst, read]
  | long name =>
    rw [option] at formed
    have named := name?_append formed (continuesName_eq_false.2 stops)
    simp [Atom.spell, spelling?, Usage.longOption?, named, read]
  | _ =>
    have isOption := spelling.isOption
    rw [option] at isOption
    contradiction

end Spelling

/-- No spelling is read where no hyphen stands. -/
theorem spelling?_eq_none {text : List Char} (noHyphen : text.head? ≠ some '-') :
    spelling? text = none := by
  cases text with
  | nil => rfl
  | cons c rest =>
    have other : c ≠ '-' := fun same => noHyphen (congrArg some same)
    simp [spelling?, Usage.longOption?, Usage.shortOption?, other]

/-- What is written after all spellings of a record: it may stand after a spelling, and no spelling
follows what sets spellings apart, if that comes next. -/
structure Last (text : List Char) : Prop where
  /-- It may stand after a spelling. -/
  apart : Apart text
  /-- No spelling follows. -/
  none : ∀ next, separator? text = some next → spelling? next = none

/-- No spelling is read after the last one. -/
theorem Last.moreSpellings {text : List Char} (last : Last text) (bound : Nat) :
    moreSpellings bound text = ([], text) := by
  cases bound with
  | zero => rfl
  | succ bound =>
    rw [Description.moreSpellings]
    cases separator : separator? text with
    | none => rfl
    | some next => simp only [last.none next separator]

/-- Nothing more is read where a line stops. -/
theorem last_of_stops {text : List Char} (stops : Stops text) : Last text where
  apart := apart_of_stops stops
  none next separator := by cases stops <;> contradiction

/-- Further lines begin where a line stops. -/
theorem stops_more (more : List (List Char)) : Stops (more.flatMap ('\n' :: ·)) := by
  cases more with
  | nil => exact .nil
  | cons line later => exact .feed _

/-- A description does not begin with a hyphen, whatever lines come after it. -/
theorem head?_description {words later : List Char} (stops : Stops later)
    (noHyphen : (skipBlanks words).head? ≠ some '-') :
    (skipBlanks (words ++ later)).head? ≠ some '-' := by
  have skipped : skipBlanks (words ++ later) = skipBlanks words ++ later :=
    skipBlanks_keeps (keepsLines_append stops) words
  rw [skipped]
  cases left : skipBlanks words with
  | nil => cases stops <;> simp
  | cons c rest =>
    rw [left] at noHyphen
    exact noHyphen

/-- What ends the line of the spellings stands there with the further lines after it. -/
theorem last_of_ending {ending : List Char} (ends : Ending ending) (more : List (List Char)) :
    Last (ending ++ more.flatMap ('\n' :: ·)) := by
  have stops := stops_more more
  generalize more.flatMap ('\n' :: ·) = later at stops ⊢
  cases ends with
  | none => exact last_of_stops stops
  | carriage => exact last_of_stops (.carriage later)
  | @description blanks words two blank single noHyphen =>
    obtain ⟨c, d, others, rfl⟩ : ∃ c d others, blanks = c :: d :: others := by
      match blanks, two with
      | c :: d :: others, _ => exact ⟨c, d, others, rfl⟩
    obtain ⟨first, rest⟩ := List.forall_mem_cons.1 blank
    have separator : separator? (c :: d :: others ++ words ++ later) =
        some (skipBlanks (words ++ later)) := by
      rw [List.append_assoc, List.cons_append, separator?_cons (.inr first), skipBlanks,
        List.dropWhile_append_of_pos rest, skipBlanks]
    refine ⟨apart_of_isBlank first (.inl (rest d List.mem_cons_self)), fun next found => ?_⟩
    obtain rfl := Option.some.inj (separator.symm.trans found)
    exact spelling?_eq_none (head?_description stops noHyphen)

namespace Record

/-- Spellings after gaps may stand after a spelling. -/
theorem apart_othersText (others : List (Gap × Spelling)) {last : List Char} (ends : Last last) :
    Apart (othersText others ++ last) := by
  cases others with
  | nil => exact ends.apart
  | cons first later =>
    obtain ⟨gap, spelling⟩ := first
    obtain ⟨rest, begins⟩ := spelling.exists_text
    have apart := gap.apart_append (rest ++ (othersText later ++ last))
    simpa only [othersText, List.flatMap_cons, begins, List.append_assoc, List.cons_append] using
      apart

/-- Spellings after gaps are read as they are written. -/
theorem moreSpellings_othersText {others : List (Gap × Spelling)} {last : List Char}
    (ends : Last last) {bound : Nat} (enough : others.length ≤ bound) :
    moreSpellings bound (othersText others ++ last) =
      (others.map fun other => other.2.mention, last) := by
  induction others generalizing bound with
  | nil => exact ends.moreSpellings bound
  | cons first later ih =>
    obtain ⟨gap, spelling⟩ := first
    obtain ⟨rest, begins⟩ := spelling.exists_text
    obtain ⟨bound, rfl⟩ : ∃ smaller, bound = smaller + 1 :=
      Nat.exists_eq_succ_of_ne_zero (Nat.ne_of_gt (Nat.lt_of_lt_of_le (Nat.succ_pos _) enough))
    have separator := gap.separator? (rest ++ (othersText later ++ last))
    rw [← List.cons_append, ← begins] at separator
    have read := spelling.spelling?_text (apart_othersText later ends)
    have shape : othersText ((gap, spelling) :: later) ++ last =
        gap.text ++ (spelling.text ++ (othersText later ++ last)) := by
      simp only [othersText, List.flatMap_cons, List.append_assoc]
    rw [shape, moreSpellings, separator]
    dsimp only
    rw [read]
    dsimp only
    rw [ih (Nat.le_of_succ_le_succ enough)]
    rfl

/-- The spellings of a record are read as they are written. -/
theorem spellings_text (record : Record) :
    Description.spellings record.text = .ok (record.spellings.map Spelling.mention,
      record.ending ++ record.more.flatMap ('\n' :: ·)) := by
  obtain ⟨rest, begins⟩ := record.first.exists_text
  have ends := last_of_ending record.ends record.more
  generalize tail : record.ending ++ record.more.flatMap ('\n' :: ·) = last at ends ⊢
  have shape : record.text =
      record.indent ++ (record.first.text ++ (othersText record.others ++ last)) := by
    rw [text, ← tail]
    simp only [List.append_assoc]
  have skipped : skipBlanks record.text =
      record.first.text ++ (othersText record.others ++ last) := by
    rw [shape, begins, List.cons_append]
    exact dropWhile_word record.blank (ends_cons.2 (by decide))
  have enough : record.others.length ≤ (othersText record.others ++ last).length := by
    have filled : ∀ other : Gap × Spelling, other.1.text ++ other.2.text ≠ [] := by
      intro other
      obtain ⟨text, start⟩ := other.2.exists_text
      simp [start]
    rw [List.length_append]
    exact Nat.le_add_right_of_le (length_le_length_flatMap filled record.others)
  rw [Description.spellings, skipped]
  dsimp only
  rw [record.first.spelling?_text (apart_othersText record.others ends)]
  dsimp only
  rw [moreSpellings_othersText ends enough, spellings, List.map_cons, List.map_map]
  rfl

end Record

/-- No tag is found where none stands. -/
theorem findTag_eq_none {text : List Char}
    (absent : ∀ front other back, text = front ++ (other ++ back) → ¬ IsTag other) :
    findTag text = none := by
  induction text with
  | nil => rfl
  | cons c rest ih =>
    have here : afterFolded? tagOpening (c :: rest) = none := by
      refine Option.eq_none_iff_forall_ne_some.2 fun after found => ?_
      obtain ⟨opening, split, isTag⟩ := afterFolded?_eq_some_iff.1 found
      exact absent [] opening after split isTag
    rw [findTag, here]
    exact ih fun front other back split => absent (c :: front) other back (congrArg _ split)

/-- The first tag is found where it stands. -/
theorem findTag_eq_some {before opening after : List Char} (isTag : IsTag opening)
    (first : ∀ front other back, before ++ (opening ++ after) = front ++ (other ++ back) →
      IsTag other → before.length ≤ front.length) :
    findTag (before ++ (opening ++ after)) = some (opening ++ after, after) := by
  induction before with
  | nil =>
    cases opening with
    | nil => contradiction
    | cons c rest =>
      have here : afterFolded? tagOpening (c :: rest ++ after) = some after :=
        afterFolded?_eq_some_iff.2 ⟨c :: rest, rfl, isTag⟩
      rw [List.nil_append, List.cons_append, findTag, ← List.cons_append, here]
  | cons c rest ih =>
    have here : afterFolded? tagOpening (c :: (rest ++ (opening ++ after))) = none := by
      refine Option.eq_none_iff_forall_ne_some.2 fun left found => ?_
      obtain ⟨other, split, also⟩ := afterFolded?_eq_some_iff.1 found
      exact absurd (first [] other left split also) (Nat.not_succ_le_zero _)
    rw [List.cons_append, findTag, here]
    refine ih fun front other back split also => ?_
    exact Nat.le_of_succ_le_succ (first (c :: front) other back (congrArg _ split) also)

/-- The value in the first tag of a text is its default value, without the white space around. -/
theorem fallback_of_tagged {text : List Char} {value : Option (List Char)}
    (tagged : Tagged text value) :
    fallback text = .ok (value.map fun inside => String.ofList (trimWhite inside)) := by
  cases tagged with
  | none absent => rw [fallback, findTag_eq_none absent]; rfl
  | @tag before opening inside after isTag closed first =>
    have plain : ∀ c ∈ inside, decide (c ≠ ']') = true := fun c mem =>
      decide_eq_true fun same => closed (same ▸ mem)
    have taken : (inside ++ ']' :: after).takeWhile (fun c => c ≠ ']') = inside :=
      takeWhile_word plain (ends_cons.2 (by decide))
    rw [fallback, findTag_eq_some isTag first]
    dsimp only
    rw [if_pos (List.mem_append_right inside List.mem_cons_self), taken]
    rfl

/-- A first tag that is closed in the text after it is one with a value. -/
theorem tagged_of_findTag {text tag value after : List Char}
    (found : findTag text = some (tag, value ++ ']' :: after)) (closed : ']' ∉ value) :
    Tagged text (some value) := by
  obtain ⟨before, opening, rfl, rfl, isTag, first⟩ := exists_of_findTag found
  exact .tag isTag closed first

/-- Lines none of which opens a record come before any record. -/
theorem split_of_own {lines : List (List Char)} (own : ∀ line ∈ lines, isDashLine line = false) :
    split lines = (lines.flatten, []) := by
  induction lines with
  | nil => rfl
  | cons line later ih =>
    have ⟨first, others⟩ := List.forall_mem_cons.1 own
    rw [split, ih others, first]
    rfl

/-- A line that opens a record and lines that do not are one record. -/
theorem split_of_opens {line : List Char} {later : List (List Char)}
    (opens : isDashLine line = true) (own : ∀ other ∈ later, isDashLine other = false) :
    split (line :: later) = ([], [(line :: later).flatten]) := by
  rw [split, split_of_own own, opens]
  rfl

/-- The line feed of a line does not matter to whether the line opens a record. -/
theorem isDashLine_feed (line : List Char) : isDashLine (line ++ ['\n']) = isDashLine line := by
  have white : ∀ c ∈ ['\n'], isWhite c = true := Break.feed.white
  rw [isDashLine, isDashLine, skipWhite_append white]
  cases skipWhite line <;> rfl

/-- No line opens a record of a text that is joined of lines that do not. -/
theorem own_lines {line : List Char} {more : List (List Char)} (single : '\n' ∉ line)
    (plain : isDashLine line = false) (singles : ∀ other ∈ more, '\n' ∉ other)
    (own : ∀ other ∈ more, isDashLine other = false) :
    ∀ other ∈ lines (line ++ more.flatMap ('\n' :: ·)), isDashLine other = false := by
  induction more generalizing line with
  | nil =>
    rw [List.flatMap_nil, List.append_nil]
    by_cases empty : line = []
    · rw [empty]
      exact fun other mem => absurd mem List.not_mem_nil
    · rw [lines_single single empty]
      exact List.forall_mem_singleton.2 plain
  | cons next later ih =>
    have ⟨nextSingle, laterSingles⟩ := List.forall_mem_cons.1 singles
    have ⟨nextPlain, laterPlain⟩ := List.forall_mem_cons.1 own
    rw [List.flatMap_cons, List.cons_append, lines_append single]
    exact List.forall_mem_cons.2
      ⟨(isDashLine_feed line).trans plain, ih nextSingle nextPlain laterSingles laterPlain⟩

/-- The first line of a text opens a record, and no other line does, if the text is joined so. -/
theorem exists_lines {line : List Char} {more : List (List Char)} (single : '\n' ∉ line)
    (opens : isDashLine line = true) (singles : ∀ other ∈ more, '\n' ∉ other)
    (own : ∀ other ∈ more, isDashLine other = false) :
    ∃ first later, lines (line ++ more.flatMap ('\n' :: ·)) = first :: later ∧
      isDashLine first = true ∧ ∀ other ∈ later, isDashLine other = false := by
  cases more with
  | nil =>
    have filled : line ≠ [] := by rintro rfl; exact absurd opens (by decide)
    rw [List.flatMap_nil, List.append_nil, lines_single single filled]
    exact ⟨line, [], rfl, opens, fun other mem => absurd mem List.not_mem_nil⟩
  | cons next later =>
    have ⟨nextSingle, laterSingles⟩ := List.forall_mem_cons.1 singles
    have ⟨nextPlain, laterPlain⟩ := List.forall_mem_cons.1 own
    rw [List.flatMap_cons, List.cons_append, lines_append single]
    exact ⟨_, _, rfl, (isDashLine_feed line).trans opens,
      own_lines nextSingle nextPlain laterSingles laterPlain⟩

/-- A word of capitals is a name. -/
theorem isName_of_isCapitals {word : List Char} (capital : Pattern.isCapitals word = true) :
    isName word = true := by
  cases word with
  | nil => contradiction
  | cons c rest =>
    rw [Pattern.isCapitals, Bool.and_eq_true, List.all_eq_true] at capital
    obtain ⟨first, later⟩ := capital
    have letter : c.isAlphanum = ((c.isUpper || c.isLower) || c.isDigit) := rfl
    rw [isName, letter, first, Bool.true_or, Bool.true_or, Bool.true_and, List.all_eq_true]
    exact fun d mem => Usage.isNameChar_of_isCapitalChar (later d mem)

/-- Blanks are no line feeds. -/
theorem newline_not_mem_blanks {blanks : List Char} (blank : ∀ c ∈ blanks, isBlank c = true) :
    '\n' ∉ blanks := fun mem => absurd (blank _ mem) (by decide)

/-- A spelling stands in one line. -/
theorem Spelling.newline_not_mem (spelling : Spelling) : '\n' ∉ spelling.text := by
  refine List.not_mem_append (Pattern.newline_not_mem_atom spelling.formed) ?_
  rcases spelling.placed with none | ⟨sign, body, same, joins, form⟩
  · simp [none]
  · have other : sign ≠ '\n' := by rcases joins with rfl | rfl <;> decide
    have inside : '\n' ∉ body := by
      rcases form with ⟨name, named, rfl⟩ | ⟨capital, -⟩
      · simpa using Pattern.newline_not_mem_name named
      · exact Pattern.newline_not_mem_name (isName_of_isCapitals capital)
    rw [same]
    exact List.not_mem_cons_of_ne_of_not_mem other.symm inside

/-- A gap stands in one line. -/
theorem Gap.newline_not_mem (gap : Gap) : '\n' ∉ gap.text := by
  obtain ⟨c, blanks, same, begins, blank⟩ := gap.apart
  have other : c ≠ '\n' := by
    rintro rfl
    exact absurd begins (by decide)
  rw [same]
  exact List.not_mem_cons_of_ne_of_not_mem other.symm (newline_not_mem_blanks blank)

/-- What ends the line of the spellings stands in that line. -/
theorem Ending.newline_not_mem {ending : List Char} (ends : Ending ending) : '\n' ∉ ending := by
  cases ends with
  | none => decide
  | carriage => decide
  | description two blank single noHyphen =>
    exact List.not_mem_append (newline_not_mem_blanks blank) single

namespace Record

/-- The first line of a written record opens a record, and no other line of it does. -/
theorem exists_lines (record : Record) :
    ∃ first later, lines record.text = first :: later ∧ isDashLine first = true ∧
      ∀ other ∈ later, isDashLine other = false := by
  obtain ⟨rest, begins⟩ := record.first.exists_text
  refine Description.exists_lines ?_ ?_ record.single record.own
  · have others : '\n' ∉ othersText record.others := by
      intro mem
      obtain ⟨⟨gap, spelling⟩, -, inside⟩ := List.mem_flatMap.1 mem
      exact List.not_mem_append gap.newline_not_mem spelling.newline_not_mem inside
    have spelled := List.not_mem_append record.first.newline_not_mem others
    exact List.not_mem_append (List.not_mem_append (newline_not_mem_blanks record.blank) spelled)
      record.ends.newline_not_mem
  · have white : ∀ c ∈ record.indent, isWhite c = true := fun c mem =>
      isWhite_of_isBlank (record.blank c mem)
    rw [isDashLine, begins, List.append_assoc, skipWhite, List.dropWhile_append_of_pos white]
    rfl

/-- The entry of a written record has its spellings, says whether any of them has a placeholder, and
gives the value in its first tag. -/
theorem ofLines_text (record : Record) :
    ofLines (lines record.text) = .ok [entry (record.spellings.map Spelling.mention)
      (record.value.map fun inside => String.ofList (trimWhite inside))] := by
  obtain ⟨first, later, same, opens, own⟩ := record.exists_lines
  have whole : split (lines record.text) = ([], [record.text]) := by
    rw [same, split_of_opens opens own, ← same, lines_flatten]
  rw [ofLines, whole, ofRecords, List.flatten_nil, ofRecord_nil, record.spellings_text]
  dsimp only
  rw [fallback_of_tagged record.tagged]
  rfl

end Record

end Synopsis.Description

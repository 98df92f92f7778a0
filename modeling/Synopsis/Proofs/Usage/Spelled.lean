import Synopsis.Proofs.Usage.Option

/-!
# Reading spelled patterns

The spelling of a canonical pattern is read back as the pattern. Each production is read on the
spelling of its kind of pattern, followed by any text at which that production ends. A spelling
is shorter than the number of brackets that may still be opened, so the bound on them is never
reached.
-/
namespace Synopsis.Usage

open Text
open Pattern (Canonical CanonicalNode MayFollow spellInside spellUnit spellLater spellBranches
  beginsSpelling everywhere_seq everywhere_alt everywhere_opt everywhere_rep everywhere_leaf)

namespace Fragment

/-- The fragment of a pattern none of whose options has a placeholder. -/
def ofPattern (pattern : Pattern Atom) : Fragment :=
  ⟨pattern, (pattern.leaves.filter Atom.isOption).map fun option => ⟨option, false⟩⟩

/-- The mentions of a list of fragments of patterns are those of all of its leaves. -/
theorem flatMap_mentions_ofPattern (patterns : List (Pattern Atom)) :
    (patterns.map ofPattern).flatMap mentions =
      ((Pattern.leavesOf patterns).filter Atom.isOption).map fun option => ⟨option, false⟩ := by
  induction patterns with
  | nil => rfl
  | cons first later ih =>
    rw [List.map_cons, List.flatMap_cons, ih, Pattern.leavesOf, List.filter_append,
      List.map_append]
    rfl

/-- The patterns of the fragments of patterns are those patterns. -/
theorem map_pattern_ofPattern (patterns : List (Pattern Atom)) :
    (patterns.map ofPattern).map pattern = patterns := by
  rw [List.map_map, show pattern ∘ ofPattern = id from rfl, List.map_id]

/-- Fragments of patterns in order are the fragment of the sequence. -/
theorem sequence_ofPattern (parts : List (Pattern Atom)) :
    sequence (parts.map ofPattern) = ofPattern (Pattern.sequence parts) := by
  have leaves : (Pattern.sequence parts).leaves = Pattern.leavesOf parts :=
    Pattern.leaves_collapse (.seq parts)
  rw [sequence, flatMap_mentions_ofPattern, map_pattern_ofPattern, ofPattern, leaves]

/-- A choice of fragments of patterns is the fragment of the choice. -/
theorem choice_ofPattern (branches : List (Pattern Atom)) :
    choice (branches.map ofPattern) = ofPattern (Pattern.choice branches) := by
  have leaves : (Pattern.choice branches).leaves = Pattern.leavesOf branches :=
    Pattern.leaves_collapse (.alt branches)
  rw [choice, flatMap_mentions_ofPattern, map_pattern_ofPattern, ofPattern, leaves]

end Fragment

open Fragment (ofPattern)

/-- A canonical leaf is read as one word, where it does not run on and no placeholder follows. -/
theorem simple?_leaf {atom : Atom} {rest : List Char} (canonical : CanonicalNode (.leaf atom))
    (ends : Ends isNameChar rest) (plain : atom.isOption = true → value? rest = none) :
    simple? (atom.spell ++ rest) = some (ofPattern (.leaf atom), rest) := by
  obtain ⟨formed, notOptions, notWord⟩ := canonical
  cases atom with
  | short letter =>
    have read := stack?_short formed ends (plain rfl)
    simp only [Atom.spell, List.cons_append, List.nil_append, simple?, read]
    rfl
  | long name =>
    have read := longOption?_long formed ends (plain rfl)
    simp only [Atom.spell, List.cons_append, simple?, stack?_hyphens, read, String.ofList_toList]
    rfl
  | command name =>
    have other : name.toList ≠ optionsWord := by
      intro same
      exact notWord (congrArg Atom.command (String.toList_inj.1 same))
    have noWord := optionsWord?_eq_none formed other ends
    have read := name?_append formed (continuesName_eq_false.2 ends)
    obtain ⟨c, more, cut, first, -⟩ := exists_first_of_isName formed
    have noHyphen : c ≠ '-' := by rintro rfl; exact absurd first (by decide)
    have noBracket : c ≠ '<' := by rintro rfl; exact absurd first (by decide)
    rw [cut, List.cons_append] at noWord read
    rw [Atom.spell, cut, List.cons_append, simple?, stack?_eq_none noHyphen,
      longOption?_eq_none noHyphen, noWord, bracketed?_eq_none noBracket, read]
    simp only [← cut, String.ofList_toList]
    rfl
  | argument name =>
    have read : bracketed? ('<' :: (name.toList ++ '>' :: rest)) = some (name.toList, rest) :=
      bracketed?_argument formed
    simp only [Atom.spell, List.cons_append, List.append_assoc, List.nil_append, simple?,
      stack?_eq_none (c := '<') (by decide), longOption?_eq_none (c := '<') (by decide),
      optionsWord?_cons_eq_none (c := '<') (by decide), read, String.ofList_toList]
    rfl
  | options => exact absurd rfl notOptions

/-- A character at which a sequence of expressions ends. -/
def endsSequence (c : Char) : Bool := c = '|' || c = ']' || c = ')' || c = '\n'

/-- After any blanks, the text has a character at which a sequence ends. -/
def EndsSequence (text : List Char) : Prop :=
  ∃ c rest, skipBlanks text = c :: rest ∧ endsSequence c = true

/-- What follows a spelled expression does not change how the expression is read. -/
structure Follows (pattern : Pattern Atom) (rest : List Char) : Prop where
  /-- No word at the end of the expression runs on. -/
  ends : Ends isNameChar rest
  /-- No ellipsis follows. -/
  once : Ends (fun c => decide (c = '.')) (skipBlanks rest)
  /-- No placeholder follows an option. -/
  plain : pattern.isOptionLeaf = true → value? rest = none

/-- The four characters at which a sequence ends. -/
theorem endsSequence_cases {c : Char} (ends : endsSequence c = true) :
    c = '|' ∨ c = ']' ∨ c = ')' ∨ c = '\n' := by
  simpa only [endsSequence, Bool.or_eq_true, decide_eq_true_eq, or_assoc] using ends

/-- A text at which a sequence ends begins with such a character or with a blank. -/
theorem EndsSequence.cons {c : Char} {rest : List Char} (ends : EndsSequence (c :: rest)) :
    endsSequence c = true ∨ (isBlank c = true ∧ EndsSequence rest) := by
  obtain ⟨d, more, skipped, last⟩ := ends
  by_cases blank : isBlank c = true
  · rw [skipBlanks_cons blank] at skipped
    exact Or.inr ⟨blank, d, more, skipped, last⟩
  · rw [skipBlanks, List.dropWhile_cons, if_neg blank] at skipped
    exact Or.inl ((List.cons.inj skipped).1 ▸ last)

/-- A text at which a sequence ends is not empty. -/
theorem EndsSequence.ne_nil {text : List Char} (ends : EndsSequence text) : text ≠ [] := by
  rintro rfl
  obtain ⟨c, rest, skipped, -⟩ := ends
  exact List.cons_ne_nil c rest skipped.symm

/-- No name character is a blank or ends a sequence. -/
theorem EndsSequence.ends {text : List Char} (stops : EndsSequence text) :
    Ends isNameChar text := by
  rintro c rest rfl
  rcases stops.cons with last | ⟨blank, -⟩
  · rcases endsSequence_cases last with rfl | rfl | rfl | rfl <;> decide
  · simp only [isBlank, Bool.or_eq_true, decide_eq_true_eq] at blank
    rcases blank with rfl | rfl <;> decide

/-- No placeholder begins where a sequence ends. -/
theorem EndsSequence.placeholder? {text : List Char} (stops : EndsSequence text) :
    placeholder? text = none := by
  cases text with
  | nil => exact absurd rfl stops.ne_nil
  | cons c rest =>
    rcases stops.cons with last | ⟨blank, -⟩
    · rcases endsSequence_cases last with rfl | rfl | rfl | rfl <;>
        exact placeholder?_eq_none (by decide) (by decide)
    · simp only [isBlank, Bool.or_eq_true, decide_eq_true_eq] at blank
      rcases blank with rfl | rfl <;> exact placeholder?_eq_none (by decide) (by decide)

/-- No placeholder follows an option where a sequence ends. -/
theorem EndsSequence.value? {text : List Char} (stops : EndsSequence text) :
    value? text = none := by
  cases text with
  | nil => exact absurd rfl stops.ne_nil
  | cons c rest =>
    rcases stops.cons with last | ⟨blank, later⟩
    · rcases endsSequence_cases last with rfl | rfl | rfl | rfl <;>
        exact value?_eq_none (by decide) (by decide)
    · simp only [isBlank, Bool.or_eq_true, decide_eq_true_eq] at blank
      rcases blank with rfl | rfl
      · exact later.placeholder?
      · exact value?_eq_none (by decide) (by decide)

/-- Any expression may stand where a sequence ends after it. -/
theorem EndsSequence.follows {text : List Char} (stops : EndsSequence text)
    (pattern : Pattern Atom) : Follows pattern text where
  ends := stops.ends
  once := by
    obtain ⟨c, rest, skipped, last⟩ := stops
    rw [skipped, ends_cons]
    rcases endsSequence_cases last with rfl | rfl | rfl | rfl <;> decide
  plain _ := stops.value?

/-- An expression is read with a reader for one level of brackets less. -/
theorem expressionTo_succ (depth : Nat) (text : List Char) :
    expressionTo (depth + 1) text = expressionWith (expressionTo depth) text := rfl

/-- No expression begins where a sequence ends. -/
theorem expressionTo_eq_declined {depth : Nat} {c : Char} {text : List Char}
    (other : beginsSpelling c = false) : expressionTo depth (c :: text) = .declined := by
  cases depth with
  | zero => rfl
  | succ depth => rw [expressionTo_succ, expressionWith, unit_eq_declined other]

/-- No expression begins after the blanks where a sequence ends. -/
theorem EndsSequence.declined {text : List Char} (stops : EndsSequence text) (depth : Nat) :
    expressionTo depth (skipBlanks text) = .declined := by
  obtain ⟨c, rest, skipped, last⟩ := stops
  rw [skipped]
  rcases endsSequence_cases last with rfl | rfl | rfl | rfl <;>
    exact expressionTo_eq_declined (by decide)

/-- A character with which a spelling begins is no blank. -/
theorem isBlank_of_beginsSpelling {c : Char} (begins : beginsSpelling c = true) :
    isBlank c = false := by
  refine Bool.eq_false_iff.2 fun blank => ?_
  simp only [isBlank, Bool.or_eq_true, decide_eq_true_eq] at blank
  rcases blank with rfl | rfl <;> exact absurd begins (by decide)

/-- No blank stands before a spelled part of a sequence. -/
theorem skipBlanks_spell {part : Pattern Atom} {rest : List Char} (canonical : part.Canonical)
    (single : part.isSequence = false) :
    skipBlanks (part.spell ++ rest) = part.spell ++ rest := by
  obtain ⟨c, later, begins, first⟩ := Pattern.exists_first_of_spell canonical single
  rw [begins, List.cons_append]
  exact (ends_cons.2 (isBlank_of_beginsSpelling first)).dropWhile

/-- A spelled leaf is a placeholder only if it looks like one. -/
theorem placeholder?_leaf {atom : Atom} {rest : List Char}
    (canonical : CanonicalNode (.leaf atom)) (other : Pattern.isPlaceholder atom = false) :
    placeholder? (atom.spell ++ rest) = none := by
  obtain ⟨formed, notOptions, -⟩ := canonical
  cases atom with
  | short letter => exact placeholder?_eq_none (by decide) (by decide)
  | long name => exact placeholder?_eq_none (by decide) (by decide)
  | command name => exact placeholder?_name formed other
  | argument name => exact absurd other.symm Bool.false_ne_true
  | options => exact absurd rfl notOptions

/-- A spelled part of a sequence begins a placeholder only if it looks like one. -/
theorem placeholder?_spell {part : Pattern Atom} {rest : List Char} (canonical : part.Canonical)
    (single : part.isSequence = false) (other : part.startsWithPlaceholder = false) :
    placeholder? (part.spell ++ rest) = none := by
  cases part with
  | seq parts => exact absurd single.symm Bool.false_ne_true
  | alt branches => exact placeholder?_eq_none (by decide) (by decide)
  | opt body => exact placeholder?_eq_none (by decide) (by decide)
  | leaf atom => exact placeholder?_leaf (everywhere_leaf.1 canonical) other
  | rep body =>
    obtain ⟨⟨notRepeated, filled⟩, below⟩ := everywhere_rep.1 canonical
    rw [Pattern.spell_rep, List.append_assoc]
    cases body with
    | rep inner => exact absurd notRepeated.symm Bool.false_ne_true
    | alt branches => exact placeholder?_eq_none (by decide) (by decide)
    | opt inner => exact placeholder?_eq_none (by decide) (by decide)
    | leaf atom => exact placeholder?_leaf (everywhere_leaf.1 below) other
    | seq parts =>
      have several := (everywhere_seq.1 below).1.1
      match parts with
      | [] => exact absurd rfl filled
      | [part] => exact absurd rfl several
      | first :: second :: later => exact placeholder?_eq_none (by decide) (by decide)

/-- An expression that no ellipsis follows is not repeated. -/
theorem withEllipsis_once {fragment : Fragment} {rest : List Char}
    (once : Ends (fun c => decide (c = '.')) (skipBlanks rest)) :
    withEllipsis fragment rest = .accepted fragment rest := by
  unfold withEllipsis
  split
  · next last dots => exact absurd (once _ _ dots) (by decide)
  · rfl

/-- Alternatives up to their closing bracket are what the bracket makes of them. -/
theorem enclosed_eq_accepted {read : Reader} {bracket : Bracket} {text left rest : List Char}
    {body : Fragment} (inside : alternatives read text = .ok (body, left))
    (closes : skipBlanks left = bracket.closing :: rest) :
    enclosed read bracket text = .accepted (bracket.apply body) rest := by
  simp only [enclosed, inside, closes, if_true]

/-- A part of a canonical sequence may stand before the later parts. -/
theorem follows_spellLater {part : Pattern Atom} {later : List (Pattern Atom)} {rest : List Char}
    (apart : (part :: later).IsChain MayFollow) (canonical : ∀ next ∈ later, next.Canonical)
    (single : ∀ next ∈ later, next.isSequence = false) (stops : EndsSequence rest) :
    Follows part (spellLater later ++ rest) := by
  cases later with
  | nil => exact stops.follows part
  | cons next more =>
    have below := canonical next List.mem_cons_self
    have alone := single next List.mem_cons_self
    have shape : spellLater (next :: more) ++ rest =
        ' ' :: (next.spell ++ (spellLater more ++ rest)) := by
      simp only [spellLater, List.flatMap_cons, List.cons_append, List.append_assoc]
    rw [shape]
    constructor
    · exact ends_cons.2 (by decide)
    · obtain ⟨c, tail, begins, first⟩ := Pattern.exists_first_of_spell below alone
      rw [skipBlanks_cons (by decide), skipBlanks_spell below alone, begins, List.cons_append,
        ends_cons, decide_eq_false_iff_not]
      rintro rfl
      exact absurd first (by decide)
    · intro option
      exact placeholder?_spell below alone ((List.isChain_cons_cons.1 apart).1 option)

end Synopsis.Usage

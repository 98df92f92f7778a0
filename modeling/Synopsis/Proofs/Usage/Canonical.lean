import Synopsis.Proofs.Usage.Spelled

/-!
# Canonical patterns are read back

Each kind of canonical pattern is read back from its spelling in three places: before an ellipsis
or another expression, as a branch between bars, and between brackets. The induction over the
pattern carries the three together, because brackets hold branches, branches hold sequences, and
sequences hold bracketed expressions.
-/
namespace Synopsis.Usage

open Text
open Fragment (ofPattern)
open Pattern (Canonical CanonicalNode MayFollow spellInside spellUnit spellLater spellBranches
  everywhere_seq everywhere_alt everywhere_opt everywhere_rep everywhere_leaf)

/-- After any blanks, the text has a character at which alternatives end. -/
def EndsAlternatives (text : List Char) : Prop :=
  EndsSequence text ∧ ∀ rest, skipBlanks text ≠ '|' :: rest

/-- An expression is read as a pattern wherever it may stand. -/
def ReadsPart (depth : Nat) (pattern : Pattern Atom) : Prop :=
  ∀ rest, Follows pattern rest →
    expressionTo depth (pattern.spell ++ rest) = .accepted (ofPattern pattern) rest

/-- A branch is read as a pattern, after any blanks and where its sequence ends. -/
def ReadsBranch (depth : Nat) (pattern : Pattern Atom) : Prop :=
  ∀ blanks rest, (∀ c ∈ blanks, isBlank c = true) → EndsSequence rest →
    ∃ left, sequence (expressionTo depth) (blanks ++ (pattern.spell ++ rest)) =
      .ok (ofPattern pattern, left) ∧ skipBlanks left = skipBlanks rest

/-- Alternatives are read as a pattern where they end. -/
def ReadsInside (depth : Nat) (pattern : Pattern Atom) : Prop :=
  ∀ rest, EndsAlternatives rest →
    ∃ left, alternatives (expressionTo depth) (pattern.spellInside ++ rest) =
      .ok (ofPattern pattern, left) ∧ skipBlanks left = skipBlanks rest

/-- The expression before an ellipsis is read as a pattern. -/
def ReadsUnit (depth : Nat) (pattern : Pattern Atom) : Prop :=
  ∀ rest, Ends isNameChar rest → (pattern.isOptionLeaf = true → value? rest = none) →
    unit (expressionTo depth) (pattern.spellUnit ++ rest) = .accepted (ofPattern pattern) rest

/-- No more expressions are read where a sequence ends. -/
theorem moreExpressions_stops {depth bound : Nat} {rest : List Char} (stops : EndsSequence rest) :
    moreExpressions (expressionTo depth) bound rest = .ok ([], rest) := by
  cases bound with
  | zero => rfl
  | succ bound =>
    cases rest with
    | nil => exact absurd rfl stops.ne_nil
    | cons c more =>
      rcases stops.cons with last | ⟨blank, later⟩
      · have plain : isBlank c = false := by
          rcases endsSequence_cases last with rfl | rfl | rfl | rfl <;> decide
        simp only [moreExpressions, blanks?, plain, Bool.false_eq_true, if_false]
      · simp only [moreExpressions, blanks?, blank, if_true, later.declined depth]

/-- The expressions after the first one are the later parts of a sequence. -/
theorem moreExpressions_spellLater {depth bound : Nat} {later : List (Pattern Atom)}
    {rest : List Char} (read : ∀ part ∈ later, ReadsPart depth part)
    (canonical : ∀ part ∈ later, part.Canonical)
    (single : ∀ part ∈ later, part.isSequence = false) (apart : later.IsChain MayFollow)
    (stops : EndsSequence rest) (room : later.length ≤ bound) :
    moreExpressions (expressionTo depth) bound (spellLater later ++ rest) =
      .ok (later.map ofPattern, rest) := by
  induction later generalizing bound with
  | nil => exact moreExpressions_stops stops
  | cons part more ih =>
    have ⟨readFirst, readMore⟩ := List.forall_mem_cons.1 read
    have ⟨canonicalFirst, canonicalMore⟩ := List.forall_mem_cons.1 canonical
    have ⟨singleFirst, singleMore⟩ := List.forall_mem_cons.1 single
    cases bound with
    | zero => exact absurd room (Nat.not_succ_le_zero _)
    | succ bound =>
      have next := readFirst _ (follows_spellLater apart canonicalMore singleMore stops)
      have others := ih readMore canonicalMore singleMore apart.of_cons
        (Nat.le_of_succ_le_succ room)
      have shape : spellLater (part :: more) ++ rest =
          ' ' :: (part.spell ++ (spellLater more ++ rest)) := by
        simp only [spellLater, List.flatMap_cons, List.cons_append, List.append_assoc]
      have blanks : blanks? (' ' :: (part.spell ++ (spellLater more ++ rest))) =
          some (part.spell ++ (spellLater more ++ rest)) := by
        rw [blanks?, if_pos (by decide), skipBlanks_spell canonicalFirst singleFirst]
      simp only [shape, moreExpressions, blanks, next, others, List.map_cons]

/-- A sequence of parts is read after any blanks. -/
theorem sequence_parts {depth : Nat} {first : Pattern Atom} {later : List (Pattern Atom)}
    {blanks rest : List Char} (read : ∀ part ∈ first :: later, ReadsPart depth part)
    (canonical : ∀ part ∈ first :: later, part.Canonical)
    (single : ∀ part ∈ first :: later, part.isSequence = false)
    (apart : (first :: later).IsChain MayFollow) (blank : ∀ c ∈ blanks, isBlank c = true)
    (stops : EndsSequence rest) :
    sequence (expressionTo depth) (blanks ++ (first.spell ++ (spellLater later ++ rest))) =
      .ok (ofPattern (Pattern.sequence (first :: later)), rest) := by
  have ⟨readFirst, readLater⟩ := List.forall_mem_cons.1 read
  have ⟨canonicalFirst, canonicalLater⟩ := List.forall_mem_cons.1 canonical
  have ⟨singleFirst, singleLater⟩ := List.forall_mem_cons.1 single
  have start : skipBlanks (blanks ++ (first.spell ++ (spellLater later ++ rest))) =
      first.spell ++ (spellLater later ++ rest) := by
    rw [skipBlanks, List.dropWhile_append_of_pos blank, ← skipBlanks,
      skipBlanks_spell canonicalFirst singleFirst]
  have next := readFirst _ (follows_spellLater apart canonicalLater singleLater stops)
  have room : later.length ≤ (spellLater later ++ rest).length :=
    Nat.le_trans (length_le_length_flatMap (fun _ => List.cons_ne_nil _ _) later)
      (List.length_append ▸ Nat.le_add_right _ _)
  have others := moreExpressions_spellLater readLater canonicalLater singleLater apart.of_cons
    stops room
  simp only [sequence, start, next, others]
  rw [← Fragment.sequence_ofPattern, List.map_cons]

/-- A branch ends before the later ones. -/
theorem endsSequence_spellBranches (later : List (Pattern Atom)) {rest : List Char}
    (stops : EndsSequence rest) : EndsSequence (spellBranches later ++ rest) := by
  cases later with
  | nil => exact stops
  | cons next more => exact ⟨'|', _, rfl, rfl⟩

/-- There are no more later branches than characters after the blanks before them. -/
theorem length_le_spellBranches (later : List (Pattern Atom)) (rest : List Char) :
    later.length ≤ (skipBlanks (spellBranches later ++ rest)).length := by
  cases later with
  | nil => exact Nat.zero_le _
  | cons next more =>
    have others : more.length ≤ (spellBranches more).length :=
      length_le_length_flatMap (fun _ => List.cons_ne_nil _ _) more
    have shape : skipBlanks (spellBranches (next :: more) ++ rest) =
        '|' :: ' ' :: (next.spell ++ (spellBranches more ++ rest)) := by
      simp only [spellBranches, List.flatMap_cons, List.cons_append, List.append_assoc]
      rfl
    rw [shape, List.length_cons, List.length_cons, List.length_cons, List.length_append,
      List.length_append]
    omega

/-- The branches after the first one are read up to the end of the alternatives. -/
theorem moreBranches_spellBranches {depth bound : Nat} {later : List (Pattern Atom)}
    {text rest : List Char} (read : ∀ branch ∈ later, ReadsBranch depth branch)
    (stops : EndsAlternatives rest) (room : later.length ≤ bound)
    (same : skipBlanks text = skipBlanks (spellBranches later ++ rest)) :
    ∃ left, moreBranches (expressionTo depth) bound text = .ok (later.map ofPattern, left) ∧
      skipBlanks left = skipBlanks rest := by
  induction later generalizing bound text with
  | nil =>
    refine ⟨text, ?_, same⟩
    cases bound with
    | zero => rfl
    | succ bound =>
      unfold moreBranches
      split
      · next next bar => exact absurd (same.symm.trans bar) (stops.2 next)
      · rfl
  | cons branch more ih =>
    have ⟨readFirst, readMore⟩ := List.forall_mem_cons.1 read
    cases bound with
    | zero => exact absurd room (Nat.not_succ_le_zero _)
    | succ bound =>
      have ends := endsSequence_spellBranches more stops.1
      have blank : ∀ c ∈ [' '], isBlank c = true := List.forall_mem_singleton.2 rfl
      obtain ⟨left, next, leftSame⟩ := readFirst [' '] _ blank ends
      obtain ⟨last, others, lastSame⟩ := ih readMore (Nat.le_of_succ_le_succ room) leftSame
      have bar : skipBlanks text =
          '|' :: ([' '] ++ (branch.spell ++ (spellBranches more ++ rest))) := by
        rw [same, spellBranches, List.flatMap_cons]
        simp only [List.cons_append, List.append_assoc, List.nil_append]
        rfl
      exact ⟨last, by simp only [moreBranches, bar, next, others, List.map_cons], lastSame⟩

/-- A choice of branches is read up to the end of the alternatives. -/
theorem alternatives_branches {depth : Nat} {first : Pattern Atom} {later : List (Pattern Atom)}
    {blanks rest : List Char} (read : ∀ branch ∈ first :: later, ReadsBranch depth branch)
    (blank : ∀ c ∈ blanks, isBlank c = true) (stops : EndsAlternatives rest) :
    ∃ left, alternatives (expressionTo depth)
        (blanks ++ (first.spell ++ (spellBranches later ++ rest))) =
      .ok (ofPattern (Pattern.choice (first :: later)), left) ∧
        skipBlanks left = skipBlanks rest := by
  have ⟨readFirst, readLater⟩ := List.forall_mem_cons.1 read
  obtain ⟨left, head, same⟩ :=
    readFirst blanks _ blank (endsSequence_spellBranches later stops.1)
  have room : later.length ≤ left.length := by
    have bars := length_le_spellBranches later rest
    rw [← same] at bars
    exact Nat.le_trans bars (skipBlanks_length_le left)
  obtain ⟨last, others, lastSame⟩ := moreBranches_spellBranches readLater stops room same
  refine ⟨last, ?_, lastSame⟩
  simp only [alternatives, head, others]
  rw [← Fragment.choice_ofPattern, List.map_cons]

/-- What an ellipsis may follow is a part of a sequence where none follows. -/
theorem readsPart_of_unit {depth : Nat} {pattern : Pattern Atom}
    (same : pattern.spell = pattern.spellUnit) (read : ReadsUnit depth pattern) :
    ReadsPart (depth + 1) pattern := by
  intro rest follows
  rw [expressionTo_succ, expressionWith, same, read rest follows.ends follows.plain]
  exact withEllipsis_once follows.once

/-- A repeated body is a part of a sequence. -/
theorem readsPart_rep {depth : Nat} {body : Pattern Atom} (read : ReadsUnit depth body) :
    ReadsPart (depth + 1) (.rep body) := by
  intro rest follows
  have dots : Ends isNameChar ('.' :: '.' :: '.' :: rest) := ends_cons.2 (by decide)
  have plain : body.isOptionLeaf = true → value? ('.' :: '.' :: '.' :: rest) = none :=
    fun _ => value?_eq_none (by decide) (by decide)
  rw [expressionTo_succ, expressionWith, Pattern.spell_rep, List.append_assoc,
    List.cons_append, List.cons_append, List.cons_append, List.nil_append, read _ dots plain]
  rfl

/-- A part of a sequence is a branch by itself. -/
theorem readsBranch_of_part {depth : Nat} {pattern : Pattern Atom} (canonical : pattern.Canonical)
    (single : pattern.isSequence = false) (read : ReadsPart depth pattern) :
    ReadsBranch depth pattern := by
  intro blanks rest blank stops
  have reads : ∀ part ∈ [pattern], ReadsPart depth part := List.forall_mem_singleton.2 read
  have alone := sequence_parts reads (List.forall_mem_singleton.2 canonical)
    (List.forall_mem_singleton.2 single) (List.isChain_singleton _) blank stops
  exact ⟨rest, alone, rfl⟩

/-- A branch that is no choice is all of the alternatives by itself. -/
theorem readsInside_of_branch {depth : Nat} {pattern : Pattern Atom}
    (other : pattern.isChoice = false) (read : ReadsBranch depth pattern) :
    ReadsInside depth pattern := by
  intro rest stops
  have none : ∀ c ∈ ([] : List Char), isBlank c = true := by simp
  have reads : ∀ branch ∈ [pattern], ReadsBranch depth branch := List.forall_mem_singleton.2 read
  rw [← Pattern.spell_eq_spellInside other]
  exact alternatives_branches reads none stops

/-- The contents of a bracket end at the bracket that closes it. -/
theorem endsAlternatives_closing (bracket : Bracket) (rest : List Char) :
    EndsAlternatives (bracket.closing :: rest) := by
  cases bracket with
  | square =>
    exact ⟨⟨']', rest, rfl, rfl⟩, fun more bar => absurd (List.cons.inj bar).1 (by decide)⟩
  | round =>
    exact ⟨⟨')', rest, rfl, rfl⟩, fun more bar => absurd (List.cons.inj bar).1 (by decide)⟩

/-- No closing bracket is skipped as a blank. -/
theorem skipBlanks_closing (bracket : Bracket) (rest : List Char) :
    skipBlanks (bracket.closing :: rest) = bracket.closing :: rest := by
  cases bracket <;> rfl

/-- Alternatives are read between brackets. -/
theorem enclosed_inside {depth : Nat} {pattern : Pattern Atom} (bracket : Bracket)
    (rest : List Char) (read : ReadsInside depth pattern) :
    enclosed (expressionTo depth) bracket (pattern.spellInside ++ (bracket.closing :: rest)) =
      .accepted (bracket.apply (ofPattern pattern)) rest := by
  obtain ⟨left, inside, same⟩ := read _ (endsAlternatives_closing bracket rest)
  exact enclosed_eq_accepted inside (same.trans (skipBlanks_closing bracket rest))

/-- A pattern that needs parentheses before an ellipsis is read between them. -/
theorem readsUnit_of_group {depth : Nat} {pattern : Pattern Atom}
    (needed : pattern.needsGroup = true) (read : ReadsInside depth pattern) :
    ReadsUnit depth pattern := by
  intro rest _ _
  have shape : pattern.spellUnit ++ rest = '(' :: (pattern.spellInside ++ (')' :: rest)) := by
    rw [spellUnit, Pattern.parenthesize, if_pos needed, List.cons_append, List.cons_append,
      List.append_assoc, List.cons_append, List.nil_append]
  rw [shape]
  exact enclosed_inside .round rest read

/-- An optional body is read between square brackets. -/
theorem readsUnit_opt {depth : Nat} {body : Pattern Atom} (read : ReadsInside depth body) :
    ReadsUnit depth (.opt body) := by
  intro rest _ _
  have shape : (Pattern.opt body).spellUnit ++ rest =
      '[' :: (body.spellInside ++ (']' :: rest)) := by
    change ('[' :: body.spellInside ++ [']']) ++ rest = _
    rw [List.cons_append, List.cons_append, List.append_assoc, List.cons_append, List.nil_append]
  rw [shape]
  exact enclosed_inside .square rest read

/-- A canonical leaf is read as one word. -/
theorem readsUnit_leaf {depth : Nat} {atom : Atom} (canonical : CanonicalNode (.leaf atom)) :
    ReadsUnit depth (.leaf atom) := by
  intro rest ends plain
  exact unit_eq_accepted (simple?_leaf canonical ends plain)

/-- How a canonical pattern is read back, with enough brackets to open. -/
structure ReadBack (pattern : Pattern Atom) : Prop where
  /-- Before an ellipsis, if it may have one. -/
  unit : pattern.isRepeated = false → pattern ≠ .seq [] →
    ∀ depth, pattern.spellUnit.length ≤ depth → ReadsUnit depth pattern
  /-- As a part of a sequence, unless it is one. -/
  part : pattern.isSequence = false →
    ∀ depth, pattern.spell.length < depth → ReadsPart depth pattern
  /-- As a branch. -/
  branch : ∀ depth, pattern.spell.length < depth → ReadsBranch depth pattern
  /-- Between brackets. -/
  inside : ∀ depth, pattern.spellInside.length < depth → ReadsInside depth pattern

/-- A pattern that is read before an ellipsis, and is no group, is read back. -/
theorem ReadBack.of_unit {pattern : Pattern Atom} (canonical : pattern.Canonical)
    (single : pattern.isSequence = false) (other : pattern.isChoice = false)
    (same : pattern.spell = pattern.spellUnit)
    (unit : ∀ depth, pattern.spellUnit.length ≤ depth → ReadsUnit depth pattern) :
    ReadBack pattern := by
  have part : ∀ depth, pattern.spell.length < depth → ReadsPart depth pattern := by
    intro depth room
    obtain ⟨less, rfl⟩ := Nat.exists_eq_succ_of_ne_zero (Nat.ne_zero_of_lt room)
    exact readsPart_of_unit same (unit less (same ▸ Nat.le_of_lt_succ room))
  have branch : ∀ depth, pattern.spell.length < depth → ReadsBranch depth pattern :=
    fun depth room => readsBranch_of_part canonical single (part depth room)
  exact ⟨fun _ _ => unit, fun _ => part, branch, fun depth room =>
    readsInside_of_branch other
      (branch depth (Pattern.spell_eq_spellInside other ▸ room))⟩

/-- A leaf is read back. -/
theorem readBack_leaf {atom : Atom} (canonical : (Pattern.leaf atom).Canonical) :
    ReadBack (.leaf atom) :=
  .of_unit canonical rfl rfl rfl fun _ _ => readsUnit_leaf (everywhere_leaf.1 canonical)

/-- An optional body is read back if its contents are. -/
theorem readBack_opt {body : Pattern Atom} (canonical : (Pattern.opt body).Canonical)
    (back : ReadBack body) : ReadBack (.opt body) := by
  refine .of_unit canonical rfl rfl rfl fun depth room => readsUnit_opt (back.inside depth ?_)
  change ('[' :: body.spellInside ++ [']']).length ≤ depth at room
  rw [List.length_append, List.length_cons] at room
  omega

/-- A repeated body is read back if the body is read before its ellipsis. -/
theorem readBack_rep {body : Pattern Atom} (canonical : (Pattern.rep body).Canonical)
    (back : ReadBack body) : ReadBack (.rep body) := by
  obtain ⟨⟨single, filled⟩, -⟩ := everywhere_rep.1 canonical
  have part : ∀ depth, (Pattern.rep body).spell.length < depth →
      ReadsPart depth (.rep body) := by
    intro depth room
    obtain ⟨less, rfl⟩ := Nat.exists_eq_succ_of_ne_zero (Nat.ne_zero_of_lt room)
    rw [Pattern.spell_rep, List.length_append] at room
    exact readsPart_rep (back.unit single filled less (by omega))
  have branch : ∀ depth, (Pattern.rep body).spell.length < depth →
      ReadsBranch depth (.rep body) :=
    fun depth room => readsBranch_of_part canonical rfl (part depth room)
  exact ⟨fun repeated => absurd repeated.symm Bool.false_ne_true, fun _ => part, branch,
    fun depth room => readsInside_of_branch rfl (branch depth room)⟩

/-- A choice is read back if its branches are. -/
theorem readBack_alt {branches : List (Pattern Atom)}
    (canonical : (Pattern.alt branches).Canonical) (back : ∀ branch ∈ branches, ReadBack branch) :
    ReadBack (.alt branches) := by
  have several := (everywhere_alt.1 canonical).1
  have inside : ∀ depth, (Pattern.alt branches).spellInside.length < depth →
      ReadsInside depth (.alt branches) := by
    intro depth room rest stops
    match branches, several with
    | first :: second :: later, _ =>
      have read : ∀ branch ∈ first :: second :: later, ReadsBranch depth branch :=
        fun branch mem => (back branch mem).branch depth
          (Nat.lt_of_le_of_lt (Pattern.length_spell_le_alt mem) room)
      have none : ∀ c ∈ ([] : List Char), isBlank c = true := by simp
      rw [Pattern.spellInside_alt, List.append_assoc]
      exact alternatives_branches read none stops
  have unit : ∀ depth, (Pattern.alt branches).spellUnit.length ≤ depth →
      ReadsUnit depth (.alt branches) := by
    intro depth room
    change ('(' :: (Pattern.alt branches).spellInside ++ [')']).length ≤ depth at room
    rw [List.length_append, List.length_cons] at room
    exact readsUnit_of_group rfl (inside depth (by omega))
  have part : ∀ depth, (Pattern.alt branches).spell.length < depth →
      ReadsPart depth (.alt branches) := by
    intro depth room
    obtain ⟨less, rfl⟩ := Nat.exists_eq_succ_of_ne_zero (Nat.ne_zero_of_lt room)
    exact readsPart_of_unit rfl (unit less (Nat.le_of_lt_succ room))
  exact ⟨fun _ _ => unit, fun _ => part,
    fun depth room => readsBranch_of_part canonical rfl (part depth room), inside⟩

/-- A sequence is read back if its parts are. -/
theorem readBack_seq {parts : List (Pattern Atom)} (canonical : (Pattern.seq parts).Canonical)
    (back : ∀ part ∈ parts, ReadBack part) : ReadBack (.seq parts) := by
  obtain ⟨⟨several, single, apart⟩, below⟩ := everywhere_seq.1 canonical
  have branch : ∀ depth, (Pattern.seq parts).spell.length < depth →
      ReadsBranch depth (.seq parts) := by
    intro depth room blanks rest blank stops
    match parts, several with
    | [], _ =>
      have skipped : skipBlanks (blanks ++ rest) = skipBlanks rest :=
        List.dropWhile_append_of_pos blank
      have declined := stops.declined depth
      rw [← skipped] at declined
      refine ⟨blanks ++ rest, ?_, skipped⟩
      change sequence (expressionTo depth) (blanks ++ rest) = _
      simp only [sequence, declined]
      rfl
    | first :: second :: later, _ =>
      have read : ∀ part ∈ first :: second :: later, ReadsPart depth part :=
        fun part mem => (back part mem).part (single part mem) depth
          (Nat.lt_of_le_of_lt (Pattern.length_spell_le_seq mem) room)
      refine ⟨rest, ?_, rfl⟩
      rw [Pattern.spell_eq_spellInside rfl, Pattern.spellInside_seq, List.append_assoc]
      exact sequence_parts read below single apart blank stops
  have inside : ∀ depth, (Pattern.seq parts).spellInside.length < depth →
      ReadsInside depth (.seq parts) :=
    fun depth room => readsInside_of_branch rfl (branch depth room)
  have unit : Pattern.seq parts ≠ .seq [] → ∀ depth,
      (Pattern.seq parts).spellUnit.length ≤ depth → ReadsUnit depth (.seq parts) := by
    intro filled depth room
    match parts, several with
    | [], _ => exact absurd rfl filled
    | first :: second :: later, _ =>
      change ('(' :: (Pattern.seq (first :: second :: later)).spellInside ++ [')']).length ≤ depth
        at room
      rw [List.length_append, List.length_cons] at room
      exact readsUnit_of_group rfl (inside depth (by omega))
  exact ⟨fun _ => unit, fun other => absurd other.symm Bool.false_ne_true, branch, inside⟩

/-- Every canonical pattern is read back from its spelling. -/
theorem readBack {pattern : Pattern Atom} (canonical : pattern.Canonical) :
    ReadBack pattern := by
  induction pattern with
  | seq parts ih =>
    exact readBack_seq canonical fun part mem =>
      ih part mem ((everywhere_seq.1 canonical).2 part mem)
  | alt branches ih =>
    exact readBack_alt canonical fun branch mem =>
      ih branch mem ((everywhere_alt.1 canonical).2 branch mem)
  | opt body ih => exact readBack_opt canonical (ih (everywhere_opt.1 canonical).2)
  | rep body ih => exact readBack_rep canonical (ih (everywhere_rep.1 canonical).2)
  | leaf atom => exact readBack_leaf canonical

end Synopsis.Usage

import Synopsis.Proofs.Usage.Progress
import Synopsis.Proofs.Usage.Span

/-!
# Open brackets

The brackets that are open at a place of a text are those opened before it and not closed, the
innermost first. Reading an expression opens and closes brackets within one line: where it is
accepted, every bracket that was opened is closed again, and where it is refused, the innermost open
bracket cannot be closed, nor can the alternatives in it go on.
-/
namespace Synopsis.Usage

open Text

/-- The open brackets after one more character, the innermost first. -/
def openAfter (brackets : List Bracket) (c : Char) : List Bracket :=
  if c = Bracket.square.opening then .square :: brackets
  else if c = Bracket.round.opening then .round :: brackets
  else
    match brackets with
    | innermost :: outer => if c = innermost.closing then outer else innermost :: outer
    | [] => []

/-- The brackets that are open after a text, the innermost first. -/
def openBrackets (read : List Char) : List Bracket := read.foldl openAfter []

/-- No line break and no bracket is in the class. -/
def Neutral (inside : Char → Bool) : Prop :=
  ∀ c ∈ ['\n', '\r', '[', ']', '(', ')'], inside c = false

instance (inside : Char → Bool) : Decidable (Neutral inside) :=
  List.decidableBAll _ _

/-- What is read of a text, up to the rest, holds no line break and closes exactly the brackets that
it opens. -/
def Whole (text rest : List Char) : Prop :=
  ∃ read, text = read ++ rest ∧ '\n' ∉ read ∧ '\r' ∉ read ∧
    ∀ brackets, read.foldl openAfter brackets = brackets

/-- Extents of whole expressions. -/
abbrev whole : Extent := fun _ => Whole

/-- An opening character opens its bracket. -/
theorem openAfter_opening (brackets : List Bracket) (bracket : Bracket) :
    openAfter brackets bracket.opening = bracket :: brackets := by
  cases bracket <;> rfl

/-- A closing character closes the innermost bracket if that is its own. -/
theorem openAfter_closing (brackets : List Bracket) (bracket : Bracket) :
    openAfter (bracket :: brackets) bracket.closing = brackets := by
  cases bracket <;> rfl

/-- A character of a neutral class leaves the open brackets as they are. -/
theorem openAfter_neutral {inside : Char → Bool} (neutral : Neutral inside) {c : Char}
    (member : inside c = true) (brackets : List Bracket) : openAfter brackets c = brackets := by
  have other : ∀ d ∈ ['\n', '\r', '[', ']', '(', ')'], c ≠ d := by
    rintro d mem rfl
    exact Bool.false_ne_true ((neutral c mem).symm.trans member)
  have opening : ∀ bracket : Bracket, c ≠ bracket.opening := fun bracket =>
    other _ (by cases bracket <;> decide)
  have closing : ∀ bracket : Bracket, c ≠ bracket.closing := fun bracket =>
    other _ (by cases bracket <;> decide)
  unfold openAfter
  rw [if_neg (opening .square), if_neg (opening .round)]
  split
  · next innermost outer => rw [if_neg (closing innermost)]
  · rfl

/-- A word of a neutral class leaves the open brackets as they are. -/
theorem foldl_openAfter_neutral {inside : Char → Bool} (neutral : Neutral inside)
    {read : List Char} (all : ∀ c ∈ read, inside c = true) (brackets : List Bracket) :
    read.foldl openAfter brackets = brackets := by
  induction read with
  | nil => rfl
  | cons c later ih =>
    have ⟨first, more⟩ := List.forall_mem_cons.1 all
    rw [List.foldl_cons, openAfter_neutral neutral first, ih more]

section Whole

variable {text middle rest : List Char}

/-- Nothing read is whole. -/
theorem whole_refl (text : List Char) : Whole text text :=
  ⟨[], rfl, List.not_mem_nil, List.not_mem_nil, fun _ => rfl⟩

/-- Whole readings that adjoin are whole together. -/
theorem Whole.trans (first : Whole text middle) (second : Whole middle rest) :
    Whole text rest := by
  obtain ⟨front, rfl, feed, carriage, closed⟩ := first
  obtain ⟨back, rfl, feed', carriage', closed'⟩ := second
  refine ⟨front ++ back, (List.append_assoc ..).symm, List.not_mem_append feed feed',
    List.not_mem_append carriage carriage', fun brackets => ?_⟩
  rw [List.foldl_append, closed, closed']

/-- What is read whole lies within a line. -/
theorem Whole.within (done : Whole text rest) : Within text rest := by
  obtain ⟨read, same, feed, carriage, -⟩ := done
  exact ⟨read, same, feed, carriage⟩

/-- A span of a neutral class is whole. -/
theorem whole_of_spans {inside : Char → Bool} (neutral : Neutral inside)
    (spans : Spans inside text rest) : Whole text rest := by
  have inline : Inline inside := ⟨neutral _ (by decide), neutral _ (by decide)⟩
  obtain ⟨read, rfl, all⟩ := spans
  obtain ⟨_, same, feed, carriage⟩ := (spans_append all rest).within inline
  obtain rfl := List.append_cancel_right same
  exact ⟨read, rfl, feed, carriage, foldl_openAfter_neutral neutral all⟩

/-- A first character of a neutral class is whole. -/
theorem whole_cons {inside : Char → Bool} (neutral : Neutral inside) {c : Char}
    (member : inside c = true) (rest : List Char) : Whole (c :: rest) rest :=
  whole_of_spans neutral (.cons member (spans_refl rest))

/-- Blanks are whole. -/
theorem whole_skipBlanks (text : List Char) : Whole text (skipBlanks text) :=
  whole_of_spans (by decide) (spans_skipBlanks text)

/-- No character of a line break is added by an opening character. -/
theorem not_mem_opening {bracket : Bracket} {c : Char} (breaks : c = '\n' ∨ c = '\r')
    {read : List Char} (none : c ∉ read) : c ∉ bracket.opening :: read := by
  refine List.not_mem_cons_of_ne_of_not_mem ?_ none
  rcases breaks with rfl | rfl <;> cases bracket <;> decide

/-- No character of a line break is added by a closing character. -/
theorem not_mem_closing {bracket : Bracket} {c : Char} (breaks : c = '\n' ∨ c = '\r')
    {read : List Char} (none : c ∉ read) : c ∉ read ++ [bracket.closing] := by
  refine List.not_mem_append none (mt List.mem_singleton.1 ?_)
  rcases breaks with rfl | rfl <;> cases bracket <;> decide

/-- What is read whole in a bracket is whole with the bracket. -/
theorem Whole.group (bracket : Bracket) (inside : Whole text (bracket.closing :: rest)) :
    Whole (bracket.opening :: text) rest := by
  obtain ⟨read, rfl, feed, carriage, closed⟩ := inside
  refine ⟨bracket.opening :: (read ++ [bracket.closing]), by simp,
    not_mem_opening (.inl rfl) (not_mem_closing (.inl rfl) feed),
    not_mem_opening (.inr rfl) (not_mem_closing (.inr rfl) carriage), fun brackets => ?_⟩
  rw [List.foldl_cons, openAfter_opening, List.foldl_append, closed, List.foldl_cons,
    openAfter_closing, List.foldl_nil]

end Whole

/-- A text, up to the rest, is made of expressions with a property, of blanks and of bars. -/
inductive Passed (holds : Extent) : List Char → List Char → Prop where
  /-- Nothing is passed. -/
  | none (text : List Char) : Passed holds text text
  /-- Blanks, and more. -/
  | blanks {text rest : List Char} (more : Passed holds (skipBlanks text) rest) :
      Passed holds text rest
  /-- A bar, and more. -/
  | bar {text rest : List Char} (more : Passed holds text rest) : Passed holds ('|' :: text) rest
  /-- An expression, and more. -/
  | expression {text middle rest : List Char} {fragment : Fragment}
      (one : holds fragment text middle) (more : Passed holds middle rest) : Passed holds text rest

/-- What is passed stays passed when more is. -/
theorem Passed.trans {holds : Extent} {text middle rest : List Char}
    (first : Passed holds text middle) (second : Passed holds middle rest) :
    Passed holds text rest := by
  induction first with
  | none text => exact second
  | blanks more ih => exact .blanks (ih second)
  | bar more ih => exact .bar (ih second)
  | expression one more ih => exact .expression one (ih second)

/-- Whole expressions are passed whole, with the blanks and the bars between them. -/
theorem Passed.whole {text rest : List Char} (passed : Passed whole text rest) :
    Whole text rest := by
  have neutral : Neutral (· = '|') := by decide
  induction passed with
  | none text => exact whole_refl text
  | blanks more ih => exact (whole_skipBlanks _).trans ih
  | bar more ih => exact (whole_cons neutral rfl _).trans ih
  | expression one more ih => exact one.trans ih

/-- Expressions are passed up to what is left, or up to one that is refused. -/
def Passes (holds : Extent) (read : Reader) (text : List Char) :
    Except Fault (Fragment × List Char) → Prop
  | .ok (_, rest) => Passed holds text rest
  | .error fault => ∃ place, Passed holds text place ∧ read place = .failed fault

/-- What is passed before is passed with what follows. -/
theorem Passes.of_passed {holds : Extent} {read : Reader} {text middle : List Char}
    {result : Except Fault (Fragment × List Char)} (passed : Passed holds text middle)
    (more : Passes holds read middle result) : Passes holds read text result := by
  cases result with
  | ok found => exact passed.trans more
  | error fault =>
    obtain ⟨place, further, refused⟩ := more
    exact ⟨place, passed.trans further, refused⟩

section Reader

variable {read : Reader} {holds : Extent} (accepts : read.Accepts holds)

include accepts

/-- The loop for sequences passes expressions. -/
theorem passes_sequenceLoop {state : List Fragment × List Char}
    {result : Except Fault (Fragment × List Char)} (ends : (sequenceLoop read).Ends state result) :
    Passes holds read state.2 result := by
  induction ends with
  | @leave state result turn =>
    obtain ⟨found, text⟩ := state
    rw [sequenceLoop] at turn
    split at turn
    · obtain rfl := Turn.leave.inj turn
      exact .none text
    · split at turn
      · obtain rfl := Turn.leave.inj turn
        exact .none text
      · next fault refused =>
        obtain rfl := Turn.leave.inj turn
        exact ⟨skipBlanks text, .blanks (.none _), refused⟩
      · contradiction
  | @again state next result turn more ih =>
    obtain ⟨found, text⟩ := state
    rw [sequenceLoop] at turn
    split at turn
    · contradiction
    · split at turn
      · contradiction
      · contradiction
      · next fragment rest one =>
        obtain rfl := Turn.again.inj turn
        exact .of_passed (.blanks (.expression (accepts one) (.none rest))) ih

variable (advances : ∀ {text fragment rest}, read text = .accepted fragment rest →
  Advances text rest)

include advances

/-- A sequence passes expressions. -/
theorem passes_sequence (text : List Char) : Passes holds read text (sequence read text) :=
  passes_sequenceLoop accepts (sequenceLoop_ends advances text)

/-- The loop for branches passes expressions and bars, and ends where no bar comes next. -/
theorem passes_alternativesLoop {state : List Fragment × List Char}
    {result : Except Fault (Fragment × List Char)}
    (ends : (alternativesLoop read).Ends state result) :
    Passes holds read state.2 result ∧
      ∀ found rest, result = .ok (found, rest) → after? ['|'] (skipBlanks rest) = none := by
  induction ends with
  | @leave state result turn =>
    obtain ⟨found, text⟩ := state
    rw [alternativesLoop] at turn
    split at turn
    · next noBar =>
      obtain rfl := Turn.leave.inj turn
      refine ⟨.none text, fun fragment rest same => ?_⟩
      obtain ⟨-, rfl⟩ := ok_pair_inj same
      exact noBar
    · next next bar =>
      split at turn
      · next fault refused =>
        obtain rfl := Turn.leave.inj turn
        have inner := passes_sequence accepts advances next
        rw [refused] at inner
        have passed : Passed holds text next :=
          .blanks (after?_singleton_iff.1 bar ▸ .bar (.none next))
        exact ⟨.of_passed passed inner, fun _ _ same => by contradiction⟩
      · contradiction
  | @again state next result turn more ih =>
    obtain ⟨found, text⟩ := state
    rw [alternativesLoop] at turn
    split at turn
    · contradiction
    · next next bar =>
      split at turn
      · contradiction
      · next branch rest one =>
        obtain rfl := Turn.again.inj turn
        have inner := passes_sequence accepts advances next
        rw [one] at inner
        have passed : Passed holds text rest :=
          .blanks (after?_singleton_iff.1 bar ▸ .bar inner)
        exact ⟨.of_passed passed ih.1, ih.2⟩

variable (suffixes : read.Accepts remains)

include suffixes

/-- Alternatives pass expressions and bars, and end where no bar comes next. -/
theorem passes_alternatives (text : List Char) :
    Passes holds read text (alternatives read text) ∧
      ∀ found rest, alternatives read text = .ok (found, rest) →
        after? ['|'] (skipBlanks rest) = none := by
  have first := passes_sequence accepts advances text
  rcases one : sequence read text with fault | ⟨branch, rest⟩
  · rw [one] at first
    rw [alternatives, one]
    exact ⟨first, fun _ _ same => by contradiction⟩
  · rw [one] at first
    have more := passes_alternativesLoop accepts advances (alternativesLoop_ends suffixes one)
    exact ⟨.of_passed first more.1, more.2⟩

end Reader

/-- A fault where a bracket is not closed: neither does a bar come next, nor the character that
closes the innermost open bracket. -/
inductive Unclosed : List Char → Fault → Prop where
  /-- Nothing after the opening character is at fault before the place. -/
  | here (bracket : Bracket) {text rest : List Char} (passed : Passed whole text rest)
      (noBar : after? ['|'] (skipBlanks rest) = none)
      (noEnd : after? [bracket.closing] (skipBlanks rest) = none) :
      Unclosed (bracket.opening :: text) (.expected bracket.expected (skipBlanks rest))
  /-- An expression after the opening character is at fault. -/
  | inside (bracket : Bracket) {text place : List Char} {fault : Fault}
      (passed : Passed whole text place) (inner : Unclosed place fault) :
      Unclosed (bracket.opening :: text) fault

/-- What the outcome of reading an expression says about the text: it is read whole, or a bracket in
it is not closed. -/
def Outcome.Leads (text : List Char) : Outcome → Prop
  | .accepted _ rest => Whole text rest
  | .declined => True
  | .failed fault => Unclosed text fault

/-- What is accepted is read whole, if every outcome of the reader says so. -/
theorem accepts_of_leads {read : Reader} (leads : ∀ text, (read text).Leads text) :
    read.Accepts whole := by
  intro text fragment rest done
  have lead := leads text
  rwa [done] at lead

section Leads

variable {read : Reader} (leads : ∀ text, (read text).Leads text)
  (advances : ∀ {text fragment rest}, read text = .accepted fragment rest → Advances text rest)

include leads advances

/-- Alternatives in brackets are read whole with the brackets, or a bracket is not closed. -/
theorem leads_of_enclosed (bracket : Bracket) (text : List Char) :
    (enclosed read bracket text).Leads (bracket.opening :: text) := by
  have suffixes : read.Accepts remains := fun done => (advances done).suffix
  have accepts : read.Accepts whole := accepts_of_leads leads
  have ⟨passes, ends⟩ := @passes_alternatives read whole accepts advances suffixes text
  rw [enclosed_eq]
  rcases inside : alternatives read text with fault | ⟨body, rest⟩
  · rw [inside] at passes
    obtain ⟨place, passed, refused⟩ := passes
    have inner := leads place
    rw [refused] at inner
    exact .inside bracket passed inner
  · rw [inside] at passes
    dsimp only
    cases closed : after? [bracket.closing] (skipBlanks rest) with
    | none => exact .here bracket passes (ends body rest inside) closed
    | some last =>
      have skipped := whole_skipBlanks rest
      rw [after?_singleton_iff.1 closed] at skipped
      exact (passes.whole.trans skipped).group

/-- An expression is read whole, or a bracket in it is not closed. -/
theorem leads_of_expressionWith (text : List Char) : (expressionWith read text).Leads text := by
  have unit : (unit read text).Leads text := by
    rw [unit_eq]
    split
    · next inside square =>
      rw [after?_singleton_iff.1 square]
      exact leads_of_enclosed leads advances .square inside
    · next inside _ round =>
      rw [after?_singleton_iff.1 round]
      exact leads_of_enclosed leads advances .round inside
    · split
      · next simple => exact whole_of_spans (by decide) (spans_simple? simple)
      · trivial
  rw [expressionWith]
  split
  · next fragment rest one =>
    rw [one] at unit
    rw [withEllipsis_eq]
    split
    · next last dots =>
      have skipped := whole_skipBlanks rest
      rw [after?_eq_some_iff.1 dots] at skipped
      have neutral : Neutral (· = '.') := by decide
      have ellipsis : Whole (['.', '.', '.'] ++ last) last :=
        whole_of_spans neutral (spans_append (List.all_eq_true.1 rfl) last)
      exact unit.trans (skipped.trans ellipsis)
    · exact unit
  · trivial
  · next fault one =>
    rw [one] at unit
    exact unit

end Leads

/-- An expression is read whole, or a bracket in it is not closed, with any bound on the levels of
brackets. -/
theorem expressionTo_leads (depth : Nat) (text : List Char) :
    (expressionTo depth text).Leads text := by
  induction depth generalizing text with
  | zero => trivial
  | succ depth ih => exact leads_of_expressionWith ih (expressionTo_advances depth) text

/-- An expression is read whole, or a bracket in it is not closed. -/
theorem expression_leads (text : List Char) : (expression text).Leads text :=
  expressionTo_leads (text.length + 1) text

/-- Where a bracket is not closed, it is open, and what comes next is no blank, no bar and not the
character that closes it. -/
theorem Unclosed.exists_open {text : List Char} {fault : Fault} (unclosed : Unclosed text fault) :
    ∃ read bracket outer, text = read ++ fault.rest ∧ '\n' ∉ read ∧ '\r' ∉ read ∧
      (∀ brackets, read.foldl openAfter brackets = bracket :: (outer ++ brackets)) ∧
      fault = .expected bracket.expected fault.rest ∧
      ∀ c ∈ fault.rest.head?, isBlank c = false ∧ c ≠ '|' ∧ c ≠ bracket.closing := by
  induction unclosed with
  | @here bracket text rest passed noBar noEnd =>
    obtain ⟨read, rfl, feed, carriage, closed⟩ := passed.whole.trans (whole_skipBlanks rest)
    refine ⟨bracket.opening :: read, bracket, [], rfl, not_mem_opening (.inl rfl) feed,
      not_mem_opening (.inr rfl) carriage, fun brackets => ?_, rfl, fun c first => ?_⟩
    · rw [List.foldl_cons, openAfter_opening, closed, List.nil_append]
    · obtain ⟨later, next⟩ := List.head?_eq_some_iff.1 first
      have next : skipBlanks rest = c :: later := next
      rw [next] at noBar noEnd
      refine ⟨ends_dropWhile isBlank rest c later next, ?_, ?_⟩
      · rintro rfl
        exact absurd noBar (by simp [after?])
      · rintro rfl
        exact absurd noEnd (by simp [after?])
  | @inside bracket text place fault passed inner ih =>
    obtain ⟨front, rfl, feed, carriage, closed⟩ := passed.whole
    obtain ⟨read, innermost, outer, same, feed', carriage', opened, cause, next⟩ := ih
    refine ⟨bracket.opening :: (front ++ read), innermost, outer ++ [bracket], by simp [same],
      not_mem_opening (.inl rfl) (List.not_mem_append feed feed'),
      not_mem_opening (.inr rfl) (List.not_mem_append carriage carriage'), fun brackets => ?_,
      cause, next⟩
    rw [List.foldl_cons, openAfter_opening, List.foldl_append, closed, opened, List.append_assoc,
      List.singleton_append]

end Synopsis.Usage

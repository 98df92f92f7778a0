import Synopsis.Proofs.Usage.Open
import Synopsis.Proofs.Usage.Scan

/-!
# Scanning expressions

An expression is scanned with the options in it noted as soon as they are met, while the scanners of
the groups around it may still have to go back. Each scanner gives what the reader of the same name
gives. So one that declines has moved nowhere and noted nothing, and what the readers accept or
refuse is where the scanners stop.
-/
namespace Synopsis.Usage

open Text

deriving instance DecidableEq for Outcome

namespace Scan

/-- The scan after an expression, with the options in it noted, or where it was. -/
def outcome (scan : Scan) : Outcome → Except Fault (Option (Pattern Atom) × Scan)
  | .accepted fragment rest =>
    pure (some fragment.pattern, (scan.noting fragment.mentions).moved rest)
  | .declined => pure (none, scan)
  | .failed fault => .error fault

/-- The scan after a sequence or alternatives, with the options in them noted. -/
def result (scan : Scan) :
    Except Fault (Fragment × List Char) → Except Fault (Pattern Atom × Scan)
  | .ok (fragment, rest) => pure (fragment.pattern, (scan.noting fragment.mentions).moved rest)
  | .error fault => .error fault

/-- What comes after does not depend on where the scan was. -/
@[simp] theorem moved_result (scan : Scan) (rest : List Char)
    (found : Except Fault (Fragment × List Char)) : (scan.moved rest).result found =
      scan.result found := by
  cases found <;> rfl

end Scan

namespace Scanner

/-- Stop because the text does not go on as expected. -/
def refuse {α : Type} (what : String) : Scanner α := do throw (.expected what (← place))

/-- The rest of a sequence, after the expressions found. The number bounds the turns. -/
def sequenceFrom (read : Scanner (Option (Pattern Atom))) :
    Nat → List (Pattern Atom) → Scanner (Pattern Atom)
  | 0, found => return .sequence found
  | bound + 1, found => do
    let saved ← place
    let spaced ← skip
    if !found.isEmpty && !spaced then
      return .sequence found
    match ← read with
    | some one => sequenceFrom read bound (found ++ [one])
    | none =>
      moveTo saved
      return .sequence found

/-- A sequence of expressions, which may be empty. -/
def sequence (read : Scanner (Option (Pattern Atom))) : Scanner (Pattern Atom) := do
  sequenceFrom read ((← place).length + 1) []

/-- The rest of some alternatives, after the branches found. The number bounds the turns. -/
def branchesFrom (read : Scanner (Option (Pattern Atom))) :
    Nat → List (Pattern Atom) → Scanner (Pattern Atom)
  | 0, found => return .choice found
  | bound + 1, found => do
    let saved ← place
    let _ ← skip
    if !(← eat '|') then
      moveTo saved
      return .choice found
    branchesFrom read bound (found ++ [← sequence read])

/-- Sequences set apart by bars. -/
def alternatives (read : Scanner (Option (Pattern Atom))) : Scanner (Pattern Atom) := do
  let first ← sequence read
  branchesFrom read ((← place).length + 1) [first]

/-- Alternatives in brackets. -/
def group (read : Scanner (Option (Pattern Atom))) (bracket : Bracket) :
    Scanner (Option (Pattern Atom)) := do
  if !(← eat bracket.opening) then
    return none
  let inner ← alternatives read
  let _ ← skip
  if !(← eat bracket.closing) then
    refuse bracket.expected
  return some inner

/-- An expression without an ellipsis. -/
def unit (read : Scanner (Option (Pattern Atom))) : Scanner (Option (Pattern Atom)) := do
  if let some inner ← group read .square then
    return some inner.opt
  if let some inner ← group read .round then
    return some inner
  if let some stacked ← stack then
    return some stacked
  if let some found ← longOption then
    note found
    return some (.leaf found.option)
  if ← keyword optionsWord then
    return some (.rep (.leaf .options))
  if let some found ← argument then
    return some (.leaf (.argument (String.ofList found)))
  if let some found ← name then
    return some (.leaf (.command (String.ofList found)))
  return none

/-- One expression, repeated if an ellipsis follows. -/
def expressionWith (read : Scanner (Option (Pattern Atom))) :
    Scanner (Option (Pattern Atom)) := do
  match ← unit read with
  | none => return none
  | some one =>
    let saved ← place
    let _ ← skip
    if ← eatWord ['.', '.', '.'] then
      return some (.rep one)
    moveTo saved
    return some one

/-- One expression with fewer levels of brackets than the number. -/
def expressionTo : Nat → Scanner (Option (Pattern Atom))
  | 0 => return none
  | depth + 1 => expressionWith (expressionTo depth)

/-- One expression. -/
def expression : Scanner (Option (Pattern Atom)) := do expressionTo ((← place).length + 1)

/-- Nothing is skipped where no blank comes next. -/
theorem skipBlanks_eq_self {text : List Char} (none : blanks? text = none) :
    skipBlanks text = text := by
  cases text with
  | nil => rfl
  | cons c rest =>
    rw [blanks?] at none
    split at none
    · contradiction
    · next other => exact List.dropWhile_cons_of_neg other

/-- A turn of the loop for sequences, by the blanks that come next. -/
theorem sequenceLoop_eq (read : Reader) (found : List Fragment) (text : List Char) :
    sequenceLoop read (found, text) =
      if found ≠ [] ∧ blanks? text = none then .leave (.ok (.sequence found, text))
      else
        match read (skipBlanks text) with
        | .declined => .leave (.ok (.sequence found, text))
        | .failed fault => .leave (.error fault)
        | .accepted fragment rest => .again (found ++ [fragment], rest) := by
  have same : (!found.isEmpty && (blanks? text).isNone) = true ↔
      found ≠ [] ∧ blanks? text = none := by
    rw [Bool.and_eq_true, Bool.not_eq_true', List.isEmpty_eq_false_iff, Option.isNone_iff_eq_none]
  exact if_congr same rfl rfl

/-- A scanner gives what a reader gives from what is left of the text. -/
abbrev Follows (scanner : Scanner (Option (Pattern Atom))) (read : Reader) : Prop :=
  ∀ scan : Scan, scanner.run scan = scan.outcome (read scan.rest)

section Run

variable {scanner : Scanner (Option (Pattern Atom))} {read : Reader}
  (follows : Follows scanner read)

/-- A refused text is left where it is. -/
@[simp] theorem run_refuse {α : Type} (what : String) (scan : Scan) :
    (refuse what : Scanner α).run scan = .error (.expected what scan.rest) := rfl

/-- Where no bracket opens, the scan stays where it is. -/
theorem run_group_none (scanner : Scanner (Option (Pattern Atom))) {bracket : Bracket} {scan : Scan}
    (opening : after? [bracket.opening] scan.rest = none) :
    (group scanner bracket).run scan = pure (none, scan) := by
  simp [group, opening, Scan.followed]

include follows

section Sequences

variable
  (advances : ∀ {text fragment rest}, read text = .accepted fragment rest → Advances text rest)

include advances

/-- The expressions of a sequence are scanned one after the other as they are read. -/
theorem run_sequenceFrom (bound : Nat) (found : List Fragment) (scan : Scan)
    (enough : scan.rest.length < bound) :
    ∃ result, (sequenceLoop read).Ends (found, scan.rest) result ∧
      (sequenceFrom scanner bound (found.map Fragment.pattern)).run
        (scan.noting (found.flatMap Fragment.mentions)) = scan.result result := by
  induction bound generalizing found scan with
  | zero => omega
  | succ bound ih =>
    by_cases last : found ≠ [] ∧ blanks? scan.rest = none
    · refine ⟨_, .leave ((sequenceLoop_eq read found scan.rest).trans (if_pos last)), ?_⟩
      simp [sequenceFrom, last, skipBlanks_eq_self last.2, Scan.result, Fragment.sequence]
    · have turn := (sequenceLoop_eq read found scan.rest).trans (if_neg last)
      cases one : read (skipBlanks scan.rest) with
      | declined =>
        rw [one] at turn
        refine ⟨_, .leave turn, ?_⟩
        simp [sequenceFrom, last, follows, one, Scan.outcome, Scan.result, Fragment.sequence]
      | failed fault =>
        rw [one] at turn
        refine ⟨_, .leave turn, ?_⟩
        simp [sequenceFrom, last, follows, one, Scan.outcome, Scan.result, error_bind]
      | accepted fragment rest =>
        rw [one] at turn
        have shorter := ((advances one).of_suffix (skipBlanks_suffix scan.rest)).shorter
        obtain ⟨result, ends, same⟩ :=
          ih (found ++ [fragment]) (scan.moved rest) (Nat.lt_of_lt_of_le shorter (by omega))
        refine ⟨result, .again turn ends, ?_⟩
        simpa [sequenceFrom, last, follows, one, Scan.outcome] using same

/-- A sequence is scanned as it is read. -/
theorem run_sequence (scan : Scan) :
    (sequence scanner).run scan = scan.result (Usage.sequence read scan.rest) := by
  obtain ⟨result, ends, same⟩ := run_sequenceFrom follows advances _ [] scan
    (Nat.lt_succ_self scan.rest.length)
  rw [(sequenceLoop_ends advances scan.rest).unique ends]
  simpa [sequence] using same

/-- The branches of alternatives are scanned one after the other as they are read. -/
theorem run_branchesFrom (bound : Nat) (found : List Fragment) (scan : Scan)
    (enough : scan.rest.length < bound) :
    ∃ result, (alternativesLoop read).Ends (found, scan.rest) result ∧
      (branchesFrom scanner bound (found.map Fragment.pattern)).run
        (scan.noting (found.flatMap Fragment.mentions)) = scan.result result := by
  have suffixes : read.Accepts remains := fun done => (advances done).suffix
  have sequences := run_sequence follows advances
  induction bound generalizing found scan with
  | zero => omega
  | succ bound ih =>
    cases bar : after? ['|'] (skipBlanks scan.rest) with
    | none =>
      refine ⟨_, .leave (by simp only [alternativesLoop, bar]; rfl), ?_⟩
      simp [branchesFrom, bar, Scan.followed, Scan.result, Fragment.choice]
    | some next =>
      rcases one : Usage.sequence read next with fault | ⟨branch, rest⟩
      · refine ⟨_, .leave (by simp only [alternativesLoop, bar, one]; rfl), ?_⟩
        simp [branchesFrom, bar, sequences, one, Scan.followed, Scan.result, error_bind]
      · have shorter := ((bar_advances bar).more (sequence_remains suffixes one)).shorter
        have turn :
            alternativesLoop read (found, scan.rest) = .again (found ++ [branch], rest) := by
          simp only [alternativesLoop, bar, one]
        obtain ⟨result, ends, same⟩ :=
          ih (found ++ [branch]) (scan.moved rest) (Nat.lt_of_lt_of_le shorter (by omega))
        refine ⟨result, .again turn ends, ?_⟩
        simpa [branchesFrom, bar, sequences, one, Scan.followed, Scan.result] using same

/-- Alternatives are scanned as they are read. -/
theorem run_alternatives (scan : Scan) :
    (alternatives scanner).run scan = scan.result (Usage.alternatives read scan.rest) := by
  have suffixes : read.Accepts remains := fun done => (advances done).suffix
  rcases one : Usage.sequence read scan.rest with fault | ⟨branch, rest⟩
  · simp [alternatives, Usage.alternatives, run_sequence follows advances, one, Scan.result,
      error_bind]
  · obtain ⟨result, ends, same⟩ := run_branchesFrom follows advances _ [branch] (scan.moved rest)
      (Nat.lt_succ_self rest.length)
    rw [(alternativesLoop_ends suffixes one).unique ends]
    simpa [alternatives, run_sequence follows advances, one, Scan.result] using same

/-- Where a bracket opens, the alternatives in it are scanned as they are read, whatever is made of
them as long as it is what the bracket makes of them. -/
theorem run_group_bind {bracket : Bracket} {scan : Scan} {inside : List Char}
    (opening : after? [bracket.opening] scan.rest = some inside)
    {next : Option (Pattern Atom) → Scanner (Option (Pattern Atom))}
    (applies : ∀ body : Fragment,
      next (some body.pattern) = pure (some (bracket.apply body).pattern)) :
    (group scanner bracket >>= next).run scan =
      scan.outcome (enclosed read bracket inside) := by
  have inner := run_alternatives follows advances (scan.moved inside)
  have mentions : ∀ body : Fragment, (bracket.apply body).mentions = body.mentions := by
    cases bracket <;> exact fun _ => rfl
  rw [enclosed_eq]
  rcases body : Usage.alternatives read inside with fault | ⟨body, rest⟩
  · simp [group, opening, inner, body, Scan.followed, Scan.result, Scan.outcome, error_bind]
  · cases closing : after? [bracket.closing] (skipBlanks rest) with
    | some last =>
      simp [group, opening, inner, body, closing, applies, mentions, Scan.followed, Scan.result,
        Scan.outcome]
    | none =>
      simp [group, opening, inner, body, closing, Scan.followed, Scan.result, Scan.outcome,
        error_bind]

/-- An expression is scanned as it is read, before any ellipsis. -/
theorem run_unit (scan : Scan) :
    (unit scanner).run scan = scan.outcome (Usage.unit read scan.rest) := by
  rw [unit_eq, unit]
  cases square : after? ['['] scan.rest with
  | some inside => exact @run_group_bind _ _ follows advances .square _ _ square _ fun _ => rfl
  | none =>
    rw [StateT.run_bind, @run_group_none _ .square _ square, pure_bind]
    cases round : after? ['('] scan.rest with
    | some inside => exact @run_group_bind _ _ follows advances .round _ _ round _ fun _ => rfl
    | none =>
      dsimp only
      rw [StateT.run_bind, @run_group_none _ .round _ round, pure_bind, simple?]
      rcases stacked : stack? scan.rest with _ | ⟨mentions, rest⟩
      · rcases long : longOption? scan.rest with _ | ⟨found, rest⟩
        · rw [optionsWord?_eq]
          rcases word : keyword? optionsWord scan.rest with _ | rest
          · rcases bracketed : bracketed? scan.rest with _ | ⟨found, rest⟩
            · rcases named : name? scan.rest with _ | ⟨found, rest⟩
              · simp [stacked, long, word, bracketed, named, Scan.stacked, Scan.follow,
                  Scan.followed, Scan.outcome]
              · simp [stacked, long, word, bracketed, named, Scan.stacked, Scan.follow,
                  Scan.followed, Scan.outcome, Fragment.ofAtom]
            · simp [stacked, long, word, bracketed, Scan.stacked, Scan.follow, Scan.followed,
                Scan.outcome, Fragment.ofAtom]
          · simp [stacked, long, word, Scan.stacked, Scan.follow, Scan.followed, Scan.outcome,
              Fragment.ofAtom, Fragment.repeated]
        · simp [stacked, long, Scan.stacked, Scan.follow, Scan.outcome, Fragment.ofMentions]
      · simp [stacked, Scan.stacked, Scan.outcome, mentions_ofMentions]

/-- An expression is scanned as it is read, if those in its brackets are. -/
theorem follows_expressionWith :
    Follows (expressionWith scanner) (Usage.expressionWith read) := by
  intro scan
  have one := run_unit follows advances scan
  rw [Usage.expressionWith]
  cases found : Usage.unit read scan.rest with
  | accepted fragment rest =>
    dsimp only
    rw [withEllipsis_eq]
    cases dots : after? ['.', '.', '.'] (skipBlanks rest) <;>
      simp [expressionWith, one, found, dots, Scan.outcome, Scan.followed, Fragment.repeated]
  | declined => simp [expressionWith, one, found, Scan.outcome]
  | failed fault => simp [expressionWith, one, found, Scan.outcome, error_bind]

end Sequences

end Run

/-- An expression is scanned as it is read, with any bound on the levels of brackets. -/
theorem follows_expressionTo (depth : Nat) :
    Follows (expressionTo depth) (Usage.expressionTo depth) := by
  induction depth with
  | zero => exact fun scan => rfl
  | succ depth ih => exact follows_expressionWith ih (expressionTo_advances depth)

/-- An expression is scanned as it is read. -/
theorem follows_expression : Follows expression Usage.expression := by
  intro scan
  have bounded := follows_expressionTo (scan.rest.length + 1) scan
  simpa [expression, Usage.expression] using bounded

/-- A scanner that accepts has read part of a line, and one that declines has left the scan as it
was, both the place and what has been noted. It always does one of the two. -/
def Restores {α : Type} (scanner : Scanner α) (accepts : α → Bool) : Prop :=
  ∀ scan : Scan, ∃ result after, scanner.run scan = .ok (result, after) ∧
    if accepts result then Within scan.rest after.rest else after = scan

/-- A scanner of one thing restores the scan if what it reads lies within a line. -/
theorem restores_follow {α : Type} {scanner : Scanner (Option α)}
    {read : List Char → Option (α × List Char)}
    (run : ∀ scan, scanner.run scan = pure (scan.follow (read scan.rest)))
    (within : ∀ {text found rest}, read text = some (found, rest) → Within text rest) :
    Restores scanner Option.isSome := by
  intro scan
  refine ⟨_, _, run scan, ?_⟩
  rcases done : read scan.rest with _ | ⟨found, rest⟩
  · rfl
  · exact within done

/-- A scanner that only says whether it has read something restores the scan if what it reads lies
within a line. -/
theorem restores_followed {scanner : Scanner Bool} {read : List Char → Option (List Char)}
    (run : ∀ scan, scanner.run scan = pure (scan.followed (read scan.rest)))
    (within : ∀ {text rest}, read text = some rest → Within text rest) :
    Restores scanner id := by
  intro scan
  refine ⟨_, _, run scan, ?_⟩
  rcases done : read scan.rest with _ | rest
  · rfl
  · exact within done

/-- A stack restores the scan. -/
theorem restores_stack : Restores stack Option.isSome := by
  intro scan
  refine ⟨_, _, run_stack scan, ?_⟩
  rcases done : stack? scan.rest with _ | ⟨mentions, rest⟩
  · rfl
  · exact (spans_stack? done).within inline_isPhraseChar

/-- A word restores the scan if it holds no line break. -/
theorem restores_keyword {word : List Char} (feed : '\n' ∉ word) (carriage : '\r' ∉ word) :
    Restores (keyword word) id := by
  refine restores_followed (fun scan => run_keyword scan word) fun done => ?_
  obtain ⟨found, -⟩ := Option.filter_eq_some_iff.1 done
  exact ⟨word, after?_eq_some_iff.1 found, feed, carriage⟩

end Scanner

/-- A fault is met on the line where the text begins, after an opening bracket that is still open,
and what comes next there is no blank, no bar and not the character that closes the innermost open
bracket. -/
def StillOpen (text : List Char) (fault : Fault) : Prop :=
  ∃ read bracket outer, text = read ++ fault.rest ∧ '\n' ∉ read ∧ '\r' ∉ read ∧
    openBrackets read = bracket :: outer ∧ fault = .expected bracket.expected fault.rest ∧
    ∀ c ∈ fault.rest.head?, isBlank c = false ∧ c ≠ '|' ∧ c ≠ bracket.closing

/-- A bracket that is not closed is still open. -/
theorem Unclosed.stillOpen {text : List Char} {fault : Fault} (unclosed : Unclosed text fault) :
    StillOpen text fault := by
  obtain ⟨read, bracket, outer, same, feed, carriage, opened, cause, next⟩ := unclosed.exists_open
  exact ⟨read, bracket, outer ++ [], same, feed, carriage, opened [], cause, next⟩

/-- What is still open is so on the line where the text begins. -/
theorem StillOpen.line {text : List Char} {fault : Fault} (opened : StillOpen text fault)
    (before : List Char) :
    (fault.diagnostic (before ++ text)).position.line =
      (Position.before (before ++ text) text).line := by
  obtain ⟨read, -, -, same, feed, -⟩ := opened
  rw [Fault.diagnostic, Position.before_append, same, ← List.append_assoc, Position.before_append,
    Position.after_line, Position.after_line, List.count_append, List.count_eq_zero.2 feed,
    Nat.add_zero]

namespace Scanner

/-- The scanners give what the readers give. One that declines leaves no trace, in the place or in
what has been noted, and one that accepts has read part of a line. Only an expression can fail, and
does so at a place of the line where a bracket opened before is still open, and what comes next is
no blank, no bar and not the character that closes the innermost open bracket. -/
theorem scanners_restore :
    (∀ scan : Scan,
      expression.run scan = scan.outcome (Usage.expression scan.rest) ∧
      stack.run scan = pure (scan.stacked (stack? scan.rest)) ∧
      shortOption.run scan = pure (scan.follow (shortOption? scan.rest)) ∧
      longOption.run scan = pure (scan.follow (longOption? scan.rest)) ∧
      value.run scan = pure (scan.followed (value? scan.rest)) ∧
      (keyword optionsWord).run scan = pure (scan.followed (optionsWord? scan.rest)) ∧
      argument.run scan = pure (scan.follow (bracketed? scan.rest))) ∧
    Restores stack Option.isSome ∧ Restores shortOption Option.isSome ∧
    Restores longOption Option.isSome ∧ Restores value id ∧ Restores (keyword optionsWord) id ∧
    Restores argument Option.isSome ∧
    ∀ (before : List Char) (scan : Scan),
      match expression.run scan with
      | .ok (some _, after) => Within scan.rest after.rest
      | .ok (none, after) => after = scan
      | .error fault =>
        StillOpen scan.rest fault ∧
          (fault.diagnostic (before ++ scan.rest)).position.line =
            (Position.before (before ++ scan.rest) scan.rest).line := by
  have phrase : ∀ {text rest}, Spans isPhraseChar text rest → Within text rest :=
    fun spans => spans.within inline_isPhraseChar
  refine ⟨fun scan => ⟨follows_expression scan, run_stack scan, run_shortOption scan,
      run_longOption scan, run_value scan, ?_, run_argument scan⟩,
    restores_stack, restores_follow run_shortOption fun done => phrase (spans_shortOption? done),
    restores_follow run_longOption fun done => phrase (spans_longOption? done),
    restores_followed run_value fun done => phrase (spans_value? done),
    restores_keyword (by decide) (by decide),
    restores_follow run_argument fun done => phrase (spans_bracketed? done), fun before scan => ?_⟩
  · rw [optionsWord?_eq]
    exact run_keyword scan optionsWord
  · have leads := expression_leads scan.rest
    rw [follows_expression scan]
    cases done : Usage.expression scan.rest with
    | accepted fragment rest =>
      rw [done] at leads
      exact leads.within
    | declined => rfl
    | failed fault =>
      rw [done] at leads
      exact ⟨leads.stillOpen, leads.stillOpen.line before⟩

/-- Two brackets are open where an argument in them is not closed, so that it is declined and the
scan goes back to where it begins. -/
theorem scanners_restore_unclosed :
    expression.run ⟨"[-a (--out FILE <b\n  prog".toList, .empty⟩ =
        .error (.expected Bracket.round.expected "<b\n  prog".toList) ∧
      argument.run ⟨"<b\n  prog".toList, .empty⟩ = .ok (none, ⟨"<b\n  prog".toList, .empty⟩) ∧
      openBrackets "[-a (--out FILE ".toList = [.round, .square] ∧
      StillOpen "[-a (--out FILE <b\n  prog".toList
        (.expected Bracket.round.expected "<b\n  prog".toList) := by
  obtain ⟨follows, -, -, -, -, -, -, leaves⟩ := scanners_restore
  have refuses : ∀ text fault, Usage.expression text = .failed fault →
      expression.run ⟨text, .empty⟩ = .error fault ∧ StillOpen text fault := by
    intro text fault refused
    have run : expression.run ⟨text, .empty⟩ = .error fault := by
      rw [(follows ⟨text, .empty⟩).1, refused]
      rfl
    have opened := leaves [] ⟨text, .empty⟩
    rw [run] at opened
    exact ⟨run, opened.1⟩
  have declines : ∀ text, bracketed? text = none →
      argument.run ⟨text, .empty⟩ = .ok (none, ⟨text, .empty⟩) := by
    intro text none
    obtain ⟨-, -, -, -, -, -, same⟩ := follows ⟨text, .empty⟩
    rwa [none] at same
  have refused : Usage.expression "[-a (--out FILE <b\n  prog".toList =
      .failed (.expected Bracket.round.expected "<b\n  prog".toList) := by decide +kernel
  have declined : bracketed? "<b\n  prog".toList = none := by decide +kernel
  exact ⟨(refuses _ _ refused).1, declines _ declined, by decide +kernel, (refuses _ _ refused).2⟩

end Scanner

end Synopsis.Usage

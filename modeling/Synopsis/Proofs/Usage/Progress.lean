import Synopsis.Proofs.Loop
import Synopsis.Proofs.Usage.Transparent

/-!
# Progress in expressions

A reader that accepts an expression reads something of the text. So the readers for sequences and
for alternatives are loops that end, and the bounds on the numbers of their turns never show.
-/
namespace Synopsis.Usage

open Text

/-- A phrase is not empty. -/
theorem Phrase.text_ne_nil {phrase : Phrase} {after : List Char} (fits : phrase.Fits after) :
    phrase.text ≠ [] := by
  cases phrase with
  | command name =>
    obtain ⟨c, more, rfl, -⟩ := exists_first_of_isName fits.1
    exact List.cons_ne_nil c more
  | _ => exact List.cons_ne_nil _ _

/-- An expression before any ellipsis advances. -/
theorem advances_of_unit {fragment : Fragment} {text rest : List Char}
    (one : Unit remains fragment text rest) : Advances text rest := by
  cases one with
  | simple read =>
    obtain ⟨phrase, rfl, fits, -⟩ := phrase_of_simple? read
    obtain ⟨c, more, same⟩ := List.exists_cons_of_ne_nil (Phrase.text_ne_nil fits)
    rw [same, List.cons_append]
    exact advances_cons (List.suffix_append more rest)
  | @square _ stop _ _ inside closed | @round _ stop _ _ inside closed =>
    have skipped := skipBlanks_suffix stop
    rw [closed] at skipped
    have left := (List.suffix_cons _ rest).trans skipped
    exact advances_cons (left.trans (remains_of_branched inside))

/-- An expression advances. -/
theorem advances_of_expressed {fragment : Fragment} {text rest : List Char}
    (expressed : Expressed remains fragment text rest) : Advances text rest := by
  cases expressed with
  | once one => exact advances_of_unit one
  | @often _ stop _ _ one dots =>
    have skipped := skipBlanks_suffix stop
    rw [dots] at skipped
    have left : rest <:+ '.' :: '.' :: '.' :: rest := List.suffix_append ['.', '.', '.'] rest
    exact (advances_of_unit one).more (left.trans skipped)

/-- What is left after an expression ends the text. -/
theorem expression_remains : Reader.Accepts expression remains :=
  fun done => expressionTo_remains _ done

/-- An expression that is accepted advances, whatever the bound on its levels of brackets. -/
theorem expressionTo_advances (depth : Nat) {text rest : List Char} {fragment : Fragment}
    (done : expressionTo depth text = .accepted fragment rest) : Advances text rest := by
  cases depth with
  | zero => contradiction
  | succ depth => exact advances_of_expressed (expressionWith_accepts (expressionTo_remains _) done)

/-- An expression that is accepted advances. -/
theorem expression_advances {text rest : List Char} {fragment : Fragment}
    (done : expression text = .accepted fragment rest) : Advances text rest :=
  expressionTo_advances _ done

/-- The loop that reads a sequence, over the expressions found and the text that is left. -/
def sequenceLoop (read : Reader) :
    Loop (List Fragment × List Char) (Except Fault (Fragment × List Char))
  | (found, text) =>
    if !found.isEmpty && (blanks? text).isNone then .leave (.ok (.sequence found, text))
    else
      match read (skipBlanks text) with
      | .declined => .leave (.ok (.sequence found, text))
      | .failed fault => .leave (.error fault)
      | .accepted fragment rest => .again (found ++ [fragment], rest)

/-- The loop that reads the branches after the first one, over the branches found and the text that
is left. -/
def alternativesLoop (read : Reader) :
    Loop (List Fragment × List Char) (Except Fault (Fragment × List Char))
  | (found, text) =>
    match after? ['|'] (skipBlanks text) with
    | none => .leave (.ok (.choice found, text))
    | some next =>
      match sequence read next with
      | .error fault => .leave (.error fault)
      | .ok (branch, rest) => .again (found ++ [branch], rest)

/-- Blanks that are read are the blanks at the front. -/
theorem skipBlanks_of_blanks? {text next : List Char} (read : blanks? text = some next) :
    skipBlanks text = next := by
  cases text with
  | nil => contradiction
  | cons c rest =>
    rw [blanks?] at read
    split at read
    · next blank => exact (skipBlanks_cons blank).trans (Option.some.inj read)
    · contradiction

/-- After the first expression of a sequence, a turn begins with at least one blank. -/
theorem sequenceLoop_filled (read : Reader) {found : List Fragment} (filled : found ≠ [])
    (text : List Char) :
    sequenceLoop read (found, text) =
      match blanks? text with
      | none => .leave (.ok (.sequence found, text))
      | some next =>
        match read next with
        | .declined => .leave (.ok (.sequence found, text))
        | .failed fault => .leave (.error fault)
        | .accepted fragment rest => .again (found ++ [fragment], rest) := by
  have some : found.isEmpty = false := by simpa using filled
  cases blank : blanks? text with
  | none => simp [sequenceLoop, some, blank]
  | some next => simp only [sequenceLoop, some, blank, skipBlanks_of_blanks? blank]; rfl

section Loops

variable {read : Reader}
  (advances : ∀ {text fragment rest}, read text = .accepted fragment rest → Advances text rest)

include advances

/-- Every turn of the loop for sequences reads an expression. -/
theorem sequenceLoop_progresses : (sequenceLoop read).Progresses Prod.snd := by
  rintro ⟨found, text⟩ next turn
  simp only [sequenceLoop] at turn
  split at turn
  · contradiction
  · split at turn
    · contradiction
    · contradiction
    · next one =>
      obtain rfl := Turn.again.inj turn
      exact (advances one).of_suffix (skipBlanks_suffix text)

/-- After the first expression of a sequence, the loop reads the others. -/
theorem sequenceLoop_ends_more {bound : Nat} {found : List Fragment} {text : List Char}
    (filled : found ≠ []) (enough : text.length ≤ bound) :
    (sequenceLoop read).Ends (found, text)
      ((moreExpressions read bound text).map
        (Prod.map (fun more => .sequence (found ++ more)) id)) := by
  induction bound generalizing found text with
  | zero =>
    obtain rfl := List.length_eq_zero_iff.1 (Nat.le_zero.1 enough)
    exact .leave (by simp [sequenceLoop_filled read filled, blanks?, moreExpressions, Except.map])
  | succ bound ih =>
    rw [moreExpressions]
    cases blank : blanks? text with
    | none => exact .leave (by simp [sequenceLoop_filled read filled, blank, Except.map])
    | some next =>
      dsimp only
      cases one : read next with
      | declined => exact .leave (by simp [sequenceLoop_filled read filled, blank, one, Except.map])
      | failed fault => exact .leave (by simp only [sequenceLoop_filled read filled, blank, one]; rfl)
      | accepted fragment rest =>
        have shorter := ((blanks?_advances blank).more (advances one).suffix).shorter
        have turn : sequenceLoop read (found, text) = .again (found ++ [fragment], rest) := by
          simp only [sequenceLoop_filled read filled, blank, one]
        have ends := @ih (found ++ [fragment]) rest (by simp) (by omega)
        refine .again turn ?_
        dsimp only
        rcases more : moreExpressions read bound rest with fault | ⟨later, last⟩
        · rw [more] at ends
          exact ends
        · rw [more] at ends
          simpa [Except.map] using ends

/-- The loop for sequences ends with what is read as a sequence. -/
theorem sequenceLoop_ends (text : List Char) :
    (sequenceLoop read).Ends ([], text) (sequence read text) := by
  rw [sequence]
  cases one : read (skipBlanks text) with
  | declined => exact .leave (by simp [sequenceLoop, one])
  | failed fault => exact .leave (by simp [sequenceLoop, one])
  | accepted fragment rest =>
    have turn : sequenceLoop read ([], text) = .again ([fragment], rest) := by
      simp [sequenceLoop, one]
    have ends := sequenceLoop_ends_more advances (List.cons_ne_nil fragment [])
      (Nat.le_refl rest.length)
    refine .again turn ?_
    dsimp only
    rcases more : moreExpressions read rest.length rest with fault | ⟨later, last⟩ <;>
      · rw [more] at ends
        exact ends

end Loops

section Branches

variable {read : Reader} (suffixes : read.Accepts remains)

include suffixes

/-- Every turn of the loop for branches reads a bar. -/
theorem alternativesLoop_progresses : (alternativesLoop read).Progresses Prod.snd := by
  rintro ⟨found, text⟩ next turn
  simp only [alternativesLoop] at turn
  split at turn
  · contradiction
  · next bar =>
    split at turn
    · contradiction
    · next one =>
      obtain rfl := Turn.again.inj turn
      exact (bar_advances bar).more (sequence_remains suffixes one)

/-- The loop for branches ends with the choice of those found before and those that follow. -/
theorem alternativesLoop_ends_more {bound : Nat} {found : List Fragment} {text : List Char}
    (enough : text.length ≤ bound) :
    (alternativesLoop read).Ends (found, text)
      ((moreBranches read bound text).map
        (Prod.map (fun more => .choice (found ++ more)) id)) := by
  induction bound generalizing found text with
  | zero =>
    obtain rfl := List.length_eq_zero_iff.1 (Nat.le_zero.1 enough)
    exact .leave (by simp [alternativesLoop, after?, skipBlanks, moreBranches, Except.map])
  | succ bound ih =>
    rw [moreBranches_succ]
    cases bar : after? ['|'] (skipBlanks text) with
    | none => exact .leave (by simp [alternativesLoop, bar, Except.map])
    | some next =>
      dsimp only
      rcases one : sequence read next with fault | ⟨branch, rest⟩
      · exact .leave (by simp only [alternativesLoop, bar, one]; rfl)
      · have shorter := ((bar_advances bar).more (sequence_remains suffixes one)).shorter
        have turn : alternativesLoop read (found, text) = .again (found ++ [branch], rest) := by
          simp only [alternativesLoop, bar, one]
        have ends := @ih (found ++ [branch]) rest (by omega)
        refine .again turn ?_
        dsimp only
        rcases more : moreBranches read bound rest with fault | ⟨later, last⟩
        · rw [more] at ends
          exact ends
        · rw [more] at ends
          simpa [Except.map] using ends

/-- Once the first branch is read, the loop for branches ends with what is read as alternatives. -/
theorem alternativesLoop_ends {text rest : List Char} {branch : Fragment}
    (first : sequence read text = .ok (branch, rest)) :
    (alternativesLoop read).Ends ([branch], rest) (alternatives read text) := by
  have ends := @alternativesLoop_ends_more _ suffixes _ [branch] _ (Nat.le_refl rest.length)
  rw [alternatives, first]
  dsimp only
  rcases more : moreBranches read rest.length rest with fault | ⟨later, last⟩ <;>
    · rw [more] at ends
      exact ends

end Branches

end Synopsis.Usage

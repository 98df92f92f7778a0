import Synopsis.Proofs.Diagnostic
import Synopsis.Proofs.Usage.Block
import Synopsis.Proofs.Usage.Turn

/-!
# Usage blocks with carriage returns

A text without carriage returns has the same usage block as the text with one before each line feed:
the header is found at the same place, the lines have the same usages, and the same lines remain.
-/
namespace Synopsis.Usage

open Text

/-- A header is found alike. -/
theorem findHeader_crlf (inWord : Bool) (text : List Char) :
    findHeader inWord (crlf text) = (findHeader inWord text).map crlf := by
  have none : ∀ inWord, findHeader inWord [] = none ∧ findHeader inWord ['\r'] = none := by decide
  induction text generalizing inWord with
  | nil => rfl
  | cons c rest ih =>
    by_cases feed : c = '\n'
    · have bare := findHeader_append_feed inWord [] rest
      have both := findHeader_append_feed inWord ['\r'] (crlf rest)
      rw [(none _).1, Option.map_none, Option.none_or, List.nil_append] at bare
      rw [(none _).2, Option.map_none, Option.none_or, ih] at both
      rw [feed, bare]
      exact both
    · have header := header?_keeps keepsLines_crlf.words (c :: rest)
      rw [crlf_cons feed] at header ⊢
      rw [findHeader, findHeader, ih, header]
      cases inWord with
      | true => rfl
      | false => cases header? (c :: rest) <;> rfl

/-- A fault is the same before more text with carriage returns. -/
theorem changed_append_crlf (fault : Fault) (later : List Char) :
    fault.crlf.changed (· ++ crlf later) = (fault.changed (· ++ later)).crlf := by
  obtain ⟨cause, rest⟩ := fault
  have append := crlf_append rest later
  cases cause with
  | unexpected what found =>
    have expected := Fault.expected_crlf what (rest ++ later)
    rw [append] at expected
    exact expected
  | missingHeader => exact congrArg (Fault.mk _) append.symm
  | unclosedDefault => exact congrArg (Fault.mk _) append.symm
  | strayReturn => exact congrArg (Fault.mk _) append.symm

/-- A fault within a line does not depend on line breaks. -/
theorem crlf_of_stands {fault : Fault} {line : List Char} (stands : fault.Stands line)
    (single : '\n' ∉ line) : fault.crlf = fault := by
  obtain ⟨what, same, -⟩ := stands.changed_eq
  have inline : crlf fault.rest = fault.rest :=
    crlf_inline fun mem => single (stands.left.subset mem)
  have expected := Fault.expected_crlf what fault.rest
  rw [inline, ← same] at expected
  exact expected.symm

namespace Block

/-- The block of the text with carriage returns. -/
def crlf (block : Block) : Block := ⟨block.usages, block.remaining.map Text.crlf⟩

/-- Lines without carriage returns have the same block with carriage returns at their ends. -/
theorem ofLines_crlf {anyway : Bool} {list : List (List Char)} (lined : Lined list)
    (clean : ∀ line ∈ list, '\r' ∉ line) :
    ofLines anyway (list.map Text.crlf) =
      ((ofLines anyway list).map crlf).mapError Fault.crlf := by
  induction lined generalizing anyway with
  | nil => rfl
  | @cons line feed later single ends more ih =>
    obtain ⟨first, others⟩ := List.forall_mem_cons.1 clean
    have carriage : '\r' ∉ line := fun mem => first (List.mem_append_left _ mem)
    have ⟨own, own', last, last'⟩ : Break feed ∧ Break (Text.crlf feed) ∧
        (feed ≠ [] ∨ later = []) ∧ (Text.crlf feed ≠ [] ∨ later.map Text.crlf = []) := by
      rcases ends with rfl | ⟨rfl, -, rfl⟩
      · exact ⟨.feed, .both, .inl (by decide), .inl (by decide)⟩
      · exact ⟨.none, .none, .inr rfl, .inr rfl⟩
    -- both forms of the line are the line itself with a break after it
    rw [List.map_cons, crlf_append, crlf_inline single]
    cases counts : !anyway && endsBlock line with
    | true =>
      rw [ofLines, ofLines, endsBlock_append own.white, endsBlock_append own'.white, counts,
        if_pos rfl, if_pos rfl]
      simp only [Except.map, Except.mapError, crlf, List.map_cons, crlf_append, crlf_inline single]
    | false =>
      rw [ofLines_cons single carriage own last counts,
        ofLines_cons single carriage own' last' counts]
      cases read : usageLine line with
      | error fault =>
        have stands := usageLine_stands read
        have same := changed_append_crlf fault (feed ++ later.flatten)
        rw [crlf_of_stands stands single, crlf_append, crlf_flatten] at same
        exact congrArg Except.error same
      | ok found =>
        dsimp only
        rw [ih others]
        cases ofLines false later <;> rfl

/-- The block after a header is the same with carriage returns. -/
theorem afterHeader_crlf {text : List Char} (clean : '\r' ∉ text) :
    afterHeader (Text.crlf text) = ((afterHeader text).map crlf).mapError Fault.crlf := by
  have each : ∀ line ∈ lines text, '\r' ∉ line := by
    intro line mem carriage
    refine clean ?_
    rw [← lines_flatten text]
    exact List.mem_flatten.2 ⟨line, mem, carriage⟩
  have place : atLineEnd (skipBlanks (Text.crlf text)) = atLineEnd (skipBlanks text) := by
    rw [skipBlanks_keeps keepsLines_crlf, atLineEnd_keeps keepsLines_crlf]
  rw [afterHeader, afterHeader, place, lines_crlf]
  split
  · rw [← List.map_tail]
    exact ofLines_crlf (lined_lines text).tail fun line mem => each line (List.mem_of_mem_tail mem)
  · exact ofLines_crlf (lined_lines text) each

/-- The usage block of a text without carriage returns is the same with them. -/
theorem ofText_crlf {text : List Char} (clean : '\r' ∉ text) :
    ofText (Text.crlf text) = ((ofText text).map crlf).mapError Fault.crlf := by
  rw [ofText, ofText, afterHeader?, afterHeader?, findHeader_crlf]
  cases header : findHeader false text with
  | none => rfl
  | some rest =>
    have inside := (findHeader_suffix header).subset
    rw [Option.map_some]
    dsimp only
    rw [afterHeader_crlf fun mem => clean (inside mem)]
    cases afterHeader rest with
    | error fault => rfl
    | ok block =>
      simp only [Except.map, Except.mapError, crlf]
      split
      · rw [← crlf_flatten, Fault.expected_crlf]
      · rfl

end Block

end Synopsis.Usage

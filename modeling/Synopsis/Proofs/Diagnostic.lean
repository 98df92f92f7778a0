import Synopsis.Proofs.Position
import Synopsis.Proofs.Text.Carriage

/-!
# Diagnostics in texts with carriage returns

A carriage return before each line feed moves no line and no column, because the line feed begins
the next line in any case. So a fault is at the same place in both forms of a text. Where a line
ends, the carriage return is found instead of the line feed, and the message is the same.
-/
namespace Synopsis

open Text (crlf crlf_feed crlf_cons crlf_append)

namespace Position

/-- Carriage returns before line feeds move no position. -/
theorem after_crlf (text : List Char) : after (crlf text) = after text := by
  have general : ∀ (more : List Char) (p : Position),
      (crlf more).foldl advance p = more.foldl advance p := by
    intro more
    induction more with
    | nil => exact fun p => rfl
    | cons c rest ih =>
      intro p
      by_cases feed : c = '\n'
      · have step : (p.advance '\r').advance '\n' = p.advance '\n' := rfl
        rw [feed, crlf_feed, List.foldl_cons, List.foldl_cons, step, ih, List.foldl_cons]
      · rw [crlf_cons feed, List.foldl_cons, ih, List.foldl_cons]
  exact general text start

/-- What is left of a text is at the same place with carriage returns. -/
theorem before_crlf {text rest : List Char} (suffix : rest <:+ text) :
    before (crlf text) (crlf rest) = before text rest := by
  obtain ⟨front, rfl⟩ := suffix
  rw [crlf_append, before_append, before_append, after_crlf]

end Position

/-- The cause where a carriage return is found instead of a line feed. -/
def Cause.carriage : Cause → Cause
  | .unexpected what found => .unexpected what (found.map fun c => if c = '\n' then '\r' else c)
  | cause => cause

/-- Both characters of a line break are found as the end of a line. -/
theorem Cause.message_carriage (cause : Cause) : cause.carriage.message = cause.message := by
  have same : ∀ found : Option Char,
      foundText (found.map fun c => if c = '\n' then '\r' else c) = foundText found := by
    intro found
    cases found with
    | none => rfl
    | some c =>
      by_cases feed : c = '\n'
      · rw [feed]
        rfl
      · rw [Option.map_some, if_neg feed]
  cases cause with
  | unexpected what found => rw [carriage, message, same, message]
  | missingHeader => rfl
  | unclosedDefault => rfl
  | strayReturn => rfl

namespace Fault

/-- The same fault in a text with carriage returns. -/
def crlf (fault : Fault) : Fault := ⟨fault.cause.carriage, Text.crlf fault.rest⟩

/-- What is expected is missing at the same place. -/
theorem expected_crlf (what : String) (rest : List Char) :
    expected what (Text.crlf rest) = (expected what rest).crlf := by
  have first : (Text.crlf rest).head? =
      rest.head?.map fun c => if c = '\n' then '\r' else c := by
    cases rest with
    | nil => rfl
    | cons c more =>
      by_cases feed : c = '\n'
      · rw [feed]
        rfl
      · rw [crlf_cons feed, List.head?_cons, List.head?_cons, Option.map_some, if_neg feed]
  rw [expected, first]
  rfl

/-- A fault is at the same place of a text with carriage returns. -/
theorem diagnostic_crlf {fault : Fault} {text : List Char} (suffix : fault.rest <:+ text) :
    fault.crlf.diagnostic (Text.crlf text) =
      ⟨(fault.diagnostic text).position, fault.cause.carriage⟩ := by
  have place := Position.before_crlf suffix
  rw [diagnostic, crlf, place]
  rfl

end Fault

end Synopsis

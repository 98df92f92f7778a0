import Synopsis.Proofs.Description.Refused
import Synopsis.Proofs.Manual.Reading
import Synopsis.Proofs.Position
import Synopsis.Proofs.Usage.Header

/-!
# Refused manuals

A manual that is not accepted is refused at a definite place. The diagnostic gives the position of
the text that is left there, and says what is found at its beginning.
-/
namespace Synopsis.Manual

open Text

/-- The parts of a text are refused with its usage block or with its descriptions. -/
theorem refused_of_parts {text : List Char} {fault : Fault} (read : parts text = .error fault) :
    Usage.Refused text fault ∨ ∃ block, Usage.Block.ofText text = .ok block ∧
      Description.ofLines block.remaining = .error fault := by
  rw [parts] at read
  split at read
  · next reason failed =>
    obtain rfl := Except.error.inj read
    exact .inl (Usage.Block.refused_of_ofText failed)
  · next block done =>
    split at read
    · next reason failed =>
      obtain rfl := Except.error.inj read
      exact .inr ⟨block, done, failed⟩
    · contradiction

/-- What is left at the fault of a text ends the text. -/
theorem left_of_parts {text : List Char} {fault : Fault} (read : parts text = .error fault) :
    fault.rest <:+ text := by
  rcases refused_of_parts read with refused | ⟨block, done, failed⟩
  · exact refused.left
  · obtain ⟨lined, inside⟩ := Usage.Block.remaining_of_ofText done
    exact (Description.refused_of_ofLines lined failed).left.trans inside

/-- A manual is refused where its parts are. -/
theorem readInterface_eq_error {text : String} {diagnostic : Diagnostic} :
    readInterface text = .error diagnostic ↔
      ∃ fault, parts text.toList = .error fault ∧ diagnostic = fault.diagnostic text.toList := by
  rw [readInterface]
  cases parts text.toList with
  | error fault => simp [located, eq_comm]
  | ok found =>
    obtain ⟨pattern, catalog⟩ := found
    simp [located]

/-- What a cause says of the text that is left where reading stopped. -/
def PointsAt (text rest : List Char) : Cause → Prop
  | .unexpected expected found =>
    found = rest.head? ∧ (expected ≠ "usage line" → ∀ c ∈ found, c ≠ ' ' ∧ c ≠ '\t')
  | .missingHeader => rest = []
  | .unclosedDefault =>
    ∃ block, Usage.Block.ofText text = .ok block ∧ block.remaining.flatten <:+ text ∧
      Description.Unclosed block.remaining rest
  | .strayReturn => rest.head? = some '\r'

/-- Where a line does not go on as expected, the cause points at its first character there. -/
theorem pointsAt_of_stands {fault : Fault} {own : List Char} (stands : fault.Stands own)
    (text : List Char) : PointsAt text fault.rest fault.cause := by
  obtain ⟨what, found⟩ := stands.found
  have blank : ∀ c ∈ fault.rest.head?, c ≠ ' ' ∧ c ≠ '\t' := by
    intro c first
    obtain ⟨rest, same⟩ := List.head?_eq_some_iff.1 first
    have other := stands.skipped c rest same
    simpa [isBlank] using other
  rw [found]
  exact ⟨rfl, fun _ => blank⟩

/-- The cause with which the parts of a text are refused points at what is left. -/
theorem pointsAt_of_parts {text : List Char} {fault : Fault} (read : parts text = .error fault) :
    PointsAt text fault.rest fault.cause := by
  rcases refused_of_parts read with refused | ⟨block, done, failed⟩
  · cases refused with
    | header none => rfl
    | empty left => exact ⟨rfl, fun other => absurd rfl other⟩
    | line stands => exact pointsAt_of_stands stands text
    | stray left => rfl
  · obtain ⟨lined, inside⟩ := Usage.Block.remaining_of_ofText done
    cases Description.refused_of_ofLines lined failed with
    | spelling stands => exact pointsAt_of_stands stands text
    | unclosed tag => exact ⟨block, done, inside, tag⟩

/-- The parts of a text are refused for want of a header exactly where it has none. -/
theorem parts_missingHeader_iff {text : List Char} :
    (∃ fault, parts text = .error fault ∧ fault.cause = .missingHeader) ↔
      ¬ Usage.HasHeader text := by
  rw [← Usage.afterHeader?_eq_none_iff]
  constructor
  · rintro ⟨fault, read, missing⟩
    have other : ∀ {own : List Char}, ¬ fault.Stands own := by
      intro own stands
      obtain ⟨what, found⟩ := stands.found
      rw [missing] at found
      contradiction
    rcases refused_of_parts read with refused | ⟨block, done, failed⟩
    · cases refused with
      | header none => exact none
      | empty left => contradiction
      | line stands => exact absurd stands other
      | stray left => contradiction
    · have lined := (Usage.Block.remaining_of_ofText done).1
      cases Description.refused_of_ofLines lined failed with
      | spelling stands => exact absurd stands other
      | unclosed tag => contradiction
  · intro none
    refine ⟨⟨.missingHeader, []⟩, ?_, rfl⟩
    rw [parts, Usage.Block.ofText, none]

/-- Diagnostics point at the right place. The position of a diagnostic is that of the first byte of
a part of the text, up to its end. Where something unexpected is found, it is the first character of
that part, or its end, and no blank unless a usage line is missing. A missing header is found at the
end of the text, exactly where no header word begins in it at a boundary of words. An unclosed tag
is the first one after the spellings of a record, and is not closed before the record ends. -/
theorem readInterface_refused (text : String) :
    (∀ position cause, readInterface text = .error ⟨position, cause⟩ →
      ∃ front rest, text.toList = front ++ rest ∧
        position = .atByte text (String.ofList front).utf8ByteSize ∧
        PointsAt text.toList rest cause) ∧
    ((∃ position, readInterface text = .error ⟨position, .missingHeader⟩) ↔
      ¬ Usage.HasHeader text.toList) := by
  constructor
  · intro position cause read
    obtain ⟨fault, failed, same⟩ := readInterface_eq_error.1 read
    obtain ⟨rfl, rfl⟩ := Diagnostic.mk.inj same
    obtain ⟨front, split⟩ := left_of_parts failed
    exact ⟨front, fault.rest, split.symm, (Position.atByte_eq_before split.symm).symm,
      pointsAt_of_parts failed⟩
  · rw [← parts_missingHeader_iff]
    constructor
    · rintro ⟨position, read⟩
      obtain ⟨fault, failed, same⟩ := readInterface_eq_error.1 read
      exact ⟨fault, failed, (Diagnostic.mk.inj same).2.symm⟩
    · rintro ⟨fault, failed, missing⟩
      refine ⟨.before text.toList fault.rest, readInterface_eq_error.2 ⟨fault, failed, ?_⟩⟩
      rw [Fault.diagnostic, missing]

/-- A tag in the second of three records is not closed by the bracket in the third one. -/
theorem readInterface_refused_unclosed :
    let text := "Usage: p [-ab]\n\n  -a  [default: x]\n  -b  Of [Default: y\n  -c  ]\n"
    readInterface text = .error ⟨⟨4, 10⟩, .unclosedDefault⟩ ∧
      ∃ front rest, text.toList = front ++ rest ∧
        ⟨4, 10⟩ = Position.atByte text (String.ofList front).utf8ByteSize ∧
        PointsAt text.toList rest .unclosedDefault := by
  intro text
  have read : readInterface text = .error ⟨⟨4, 10⟩, .unclosedDefault⟩ := by decide +kernel
  exact ⟨read, (readInterface_refused text).1 _ _ read⟩

end Synopsis.Manual

import Synopsis.Proofs.Manual.Refused

/-!
# Manuals with text after a fault

A manual is read line by line, but the end of its usage block and of each record is only known from
the lines that follow. A character at which complete lines do not go on as expected is refused all
the same, whatever these are.
-/
namespace Synopsis.Manual

open Text

/-- A closed text that is refused at a character it does not go on with is refused there with more
text after it. -/
theorem parts_append_refused {text : List Char} {fault : Fault} {what : String} {c : Char}
    (closed : Closed text) (refused : parts text = .error fault)
    (met : fault.cause = .unexpected what (some c)) (later : List Char) :
    parts (text ++ later) = .error (fault.followedBy later) := by
  have first : fault.rest.head? = some c := by
    have points := pointsAt_of_parts refused
    rw [met] at points
    exact points.1.symm
  have filled : fault.rest ≠ [] := fun none => by
    rw [none] at first
    contradiction
  rw [parts] at refused
  split at refused
  · next reason failed =>
    obtain rfl := Except.error.inj refused
    rw [parts, Usage.Block.ofText_append_refused closed failed filled]
  · next block found =>
    split at refused
    · next reason failed =>
      obtain rfl := Except.error.inj refused
      -- a record is refused, so that the usage lines end before it in any case
      have remains : block.remaining ≠ [] := fun none => by
        rw [none] at failed
        contradiction
      have known : reason.cause ≠ .unclosedDefault := fun tag => by
        rw [met] at tag
        contradiction
      obtain ⟨more, each⟩ : Usage.Block.ofText (text ++ later) =
            .ok ⟨block.usages, block.remaining ++ lines later⟩ ∧
          ∀ line ∈ block.remaining, Closed line :=
        Usage.Block.ofText_append closed (fun none => absurd none remains) found
      have record := Description.ofLines_append_refused (fun line mem => (each line mem).mem)
        failed known (lines later)
      rw [lines_flatten] at record
      rw [parts, more]
      dsimp only
      rw [record]
    · contradiction

/-- A fault in complete lines is final. If a text that ends with a line feed is refused because of a
character that is not the one expected there, it is refused with any text after it at the same place
and for the same cause. -/
theorem readInterface_append_refused {text what : String} {position : Position} {c : Char}
    (closed : text.toList.getLast? = some '\n')
    (refused : readInterface text = .error ⟨position, .unexpected what (some c)⟩)
    (later : String) :
    readInterface (text ++ later) = .error ⟨position, .unexpected what (some c)⟩ := by
  obtain ⟨fault, failed, same⟩ := readInterface_eq_error.1 refused
  obtain ⟨rfl, met⟩ := Diagnostic.mk.inj same
  refine readInterface_eq_error.2 ⟨fault.followedBy later.toList, ?_, ?_⟩
  · rw [String.toList_append, parts_append_refused closed failed met.symm]
  · have place : Position.before (text.toList ++ later.toList) (fault.rest ++ later.toList) =
        Position.before text.toList fault.rest :=
      Position.before_append_right (left_of_parts failed) later.toList
    rw [String.toList_append, Fault.diagnostic, Fault.followedBy, place, met]

/-- Neither a closing bracket on the next line nor another header makes up for an open bracket. -/
theorem readInterface_append_refused_bracket :
    let text := "Usage:\n  p [-a\n"
    let cause := Cause.unexpected "expression, `|` or `]`" (some '\n')
    text.toList.getLast? = some '\n' ∧ readInterface text = .error ⟨⟨2, 8⟩, cause⟩ ∧
      readInterface (text ++ "  -b]\n\n  -a  [default: 1]\nUsage: p\n") =
        .error ⟨⟨2, 8⟩, cause⟩ := by
  intro text cause
  have closed : text.toList.getLast? = some '\n' := by decide +kernel
  have refused : readInterface text = .error ⟨⟨2, 8⟩, cause⟩ := by decide +kernel
  exact ⟨closed, refused, readInterface_append_refused closed refused _⟩

end Synopsis.Manual

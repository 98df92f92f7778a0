import Synopsis.Proofs.Text.Lines
import Synopsis.Proofs.Usage.Line

/-!
# Usage lines and what ends them

A usage line is taken with what ends it: a line break, or nothing after the last line. What is read
of the line, and whether it ends the block, does not depend on that.
-/
namespace Synopsis

open Text

/-- A fault in a text is one in the same text with more after it, unless it was met at the end of
the text. -/
theorem Fault.followedBy_expected (what : String) {rest later : List Char}
    (whole : rest ≠ [] ∨ later = []) :
    (Fault.expected what rest).followedBy later = .expected what (rest ++ later) := by
  rcases whole with filled | rfl
  · rw [Fault.expected, Fault.expected, List.head?_append_of_ne_nil _ filled, Fault.followedBy]
  · rw [List.append_nil, Fault.followedBy, List.append_nil]

namespace Usage

/-- Whether a line ends the block does not depend on white space at its end. -/
theorem endsBlock_append {tail : List Char} (white : ∀ c ∈ tail, isWhite c = true)
    (line : List Char) : endsBlock (line ++ tail) = endsBlock line := by
  have word : ∀ body : List Char, (body ++ tail).takeWhile (fun c => !isWhite c) =
      body.takeWhile fun c => !isWhite c := by
    intro body
    induction body with
    | nil =>
      cases tail with
      | nil => rfl
      | cons c rest => simp [white c List.mem_cons_self]
    | cons c rest ih => rw [List.cons_append, List.takeWhile_cons, List.takeWhile_cons, ih]
  rw [endsBlock, endsBlock, skipWhite_append white]
  cases skipWhite line with
  | nil => rfl
  | cons c rest =>
    rw [if_neg (List.cons_ne_nil c rest)]
    by_cases dash : c = '-'
    · subst dash
      rfl
    · have first := word (c :: rest)
      rw [List.cons_append] at first
      simp [dash, first]

/-- A line without a carriage return is read up to its end. -/
theorem rest_of_usageLine {line rest : List Char} {usage : Fragment} (feed : '\n' ∉ line)
    (carriage : '\r' ∉ line) (read : usageLine line = .ok (usage, rest)) : rest = [] := by
  have suffix := (usageLine_suffix read).subset
  have stops := (covers_of_usageLine read).2
  cases stops with
  | nil => rfl
  | feed more => exact absurd (suffix List.mem_cons_self) feed
  | carriage more => exact absurd (suffix List.mem_cons_self) carriage

/-- A line is refused where it is refused without its end. -/
theorem turn_refused {line ending : List Char} {later : List (List Char)} {fault : Fault}
    (stops : Stops ending) (last : ending ≠ [] ∨ later = [])
    (refused : usageLine line = .error fault) :
    turn (line ++ ending) later = .error (fault.changed (· ++ (ending ++ later.flatten))) := by
  have whole : ∀ rest : List Char, rest ++ ending ≠ [] ∨ later.flatten = [] := by
    intro rest
    exact last.imp (List.append_ne_nil_of_right_ne_nil rest) (fun none => by rw [none]; rfl)
  obtain ⟨what, -, changed_eq⟩ := (usageLine_stands refused).changed_eq
  rw [turn, usageLine_keeps (keepsLines_append stops), refused]
  simp only [changed]
  rw [changed_eq, changed_eq, Fault.followedBy_expected what (whole _), List.append_assoc]

/-- A line without a carriage return in it is taken as it is read without its end. -/
theorem turn_append {line ending : List Char} {later : List (List Char)} (feed : '\n' ∉ line)
    (carriage : '\r' ∉ line) (ends : Break ending) (last : ending ≠ [] ∨ later = []) :
    turn (line ++ ending) later = match usageLine line with
      | .error fault => .error (fault.changed (· ++ (ending ++ later.flatten)))
      | .ok (usage, _) => .ok (usage, []) := by
  cases read : usageLine line with
  | error fault => exact turn_refused ends.stops last read
  | ok found =>
    obtain ⟨usage, rest⟩ := found
    obtain rfl := rest_of_usageLine feed carriage read
    refine turn_eq_ok_iff.2 ⟨ending, ?_, ?_⟩
    · rw [usageLine_keeps (keepsLines_append ends.stops), read]
      rfl
    · cases ends <;> rfl

namespace Block

/-- A line without a carriage return in it that counts as a usage line is the first one of a
block. -/
theorem ofLines_cons {anyway : Bool} {line ending : List Char} {later : List (List Char)}
    (feed : '\n' ∉ line) (carriage : '\r' ∉ line) (ends : Break ending)
    (last : ending ≠ [] ∨ later = []) (counts : (!anyway && endsBlock line) = false) :
    ofLines anyway ((line ++ ending) :: later) = match usageLine line with
      | .error fault => .error (fault.changed (· ++ (ending ++ later.flatten)))
      | .ok (usage, _) => (ofLines false later).map (push usage) := by
  rw [ofLines, endsBlock_append ends.white, counts, if_neg Bool.false_ne_true,
    turn_append feed carriage ends last]
  cases usageLine line with
  | error fault => rfl
  | ok found => cases ofLines false later <;> rfl

end Block

end Usage

end Synopsis

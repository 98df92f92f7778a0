import Synopsis.Proofs.Usage.Block
import Synopsis.Proofs.Usage.Turn

/-!
# Refused usage blocks

Where the usage block of a text is refused, the fault leaves the end of the text from the place on
where it was met. There no header is found, or no usage line, or a usage line does not go on as it
must, or a carriage return cuts it. A fault in complete lines, of which something is left, is the
same whatever text comes after them.
-/
namespace Synopsis

open Text

/-- A fault in a text is one in the text with more text, where that does not begin with a blank at
the fault. -/
theorem Fault.Stands.changed_append {fault : Fault} {line later : List Char}
    (stands : fault.Stands line) (last : fault.rest ≠ [] ∨ Stops later) :
    (fault.changed (· ++ later)).Stands (line ++ later) := by
  obtain ⟨what, -, same⟩ := stands.changed_eq
  obtain ⟨front, left⟩ := stands.left
  rw [same]
  refine ⟨⟨front, ?_⟩, ⟨what, rfl⟩, ?_⟩
  · rw [Fault.expected, ← List.append_assoc, left]
  · have skipped := stands.skipped
    have ends : Ends isBlank (fault.rest ++ later) := by
      cases rest : fault.rest with
      | nil => exact (last.resolve_left fun filled => filled rest).ends (by decide)
      | cons c more =>
        rw [rest, ends_cons] at skipped
        exact ends_cons.2 skipped
    exact ends

namespace Usage

/-- The faults with which the usage block of a text is refused. -/
inductive Refused (text : List Char) : Fault → Prop where
  /-- The text has no header; nothing is left. -/
  | header (none : afterHeader? text = none) : Refused text ⟨.missingHeader, []⟩
  /-- No usage line follows the header. -/
  | empty {rest : List Char} (left : rest <:+ text) : Refused text (.expected "usage line" rest)
  /-- A usage line does not go on as it must. -/
  | line {fault : Fault} (stands : fault.Stands text) : Refused text fault
  /-- A carriage return cuts a usage line. -/
  | stray {rest : List Char} (left : '\r' :: rest <:+ text) :
      Refused text ⟨.strayReturn, '\r' :: rest⟩

/-- What is left at a fault ends the text. -/
theorem Refused.left {text : List Char} {fault : Fault} (refused : Refused text fault) :
    fault.rest <:+ text := by
  cases refused with
  | header none => exact List.nil_suffix
  | empty left => exact left
  | line stands => exact stands.left
  | stray left => exact left

/-- A line that is read but for a part of it is cut by a carriage return. -/
theorem exists_carriage_of_turn {line feed rest : List Char} {later : List (List Char)}
    {usage : Fragment} (single : '\n' ∉ line) (ends : feed = ['\n'] ∨ feed = [])
    (read : turn (line ++ feed) later = .ok (usage, rest)) (filled : rest ≠ []) :
    ∃ more, rest = '\r' :: more ∧ rest <:+ line ++ feed := by
  obtain ⟨stop, one, rfl⟩ := turn_eq_ok_iff.1 read
  have suffix := usageLine_suffix one
  cases (covers_of_usageLine one).2 with
  | nil => contradiction
  | feed more =>
    obtain rfl := eq_nil_of_feed single ends suffix
    contradiction
  | carriage more =>
    have lone : ∀ rest, more ≠ '\n' :: rest := by
      rintro rest rfl
      obtain rfl := eq_nil_of_feed single ends ((List.suffix_cons _ _).trans suffix)
      contradiction
    have stays : skipBreak ('\r' :: more) = '\r' :: more :=
      skipBreak_eq_self (fun rest same => absurd (List.cons.inj same).1 (by decide))
        fun rest same => lone rest (List.cons.inj same).2
    refine ⟨more, stays, ?_⟩
    rw [stays]
    exact suffix

namespace Block

/-- Where the usage lines are refused: at a line that does not go on as it must, or at a carriage
return. -/
theorem refused_of_ofLines {anyway : Bool} {list : List (List Char)} {fault : Fault}
    (lined : Lined list) (read : ofLines anyway list = .error fault) :
    fault.Stands list.flatten ∨
      ∃ rest, '\r' :: rest <:+ list.flatten ∧ fault = ⟨.strayReturn, '\r' :: rest⟩ := by
  -- induction on the lines: a fault in later lines leaves a part of these
  induction lined generalizing anyway with
  | nil => contradiction
  | @cons line feed later single ends more ih =>
    have suffix : later.flatten <:+ ((line ++ feed) :: later).flatten := List.suffix_append _ _
    have ⟨stops, across, last⟩ :
        Stops feed ∧ Stops (feed ++ later.flatten) ∧ (feed ≠ [] ∨ later = []) := by
      rcases ends with rfl | ⟨rfl, -, rfl⟩
      · exact ⟨.feed _, .feed _, .inl (by decide)⟩
      · exact ⟨.nil, .nil, .inr rfl⟩
    rw [ofLines] at read
    split at read
    · contradiction
    · split at read
      · next reason turned =>
        obtain rfl := Except.error.inj read
        cases own : usageLine line with
        | error met =>
          rw [turn_refused stops last own] at turned
          have stands := (usageLine_stands own).changed_append (.inr across)
          rw [← List.append_assoc, Except.error.inj turned] at stands
          exact .inl stands
        | ok found =>
          rw [turn, usageLine_keeps (keepsLines_append stops), own] at turned
          contradiction
      · split at read
        · next reason failed =>
          obtain rfl := Except.error.inj read
          rcases ih failed with stands | ⟨rest, left, same⟩
          · exact .inl (stands.of_suffix suffix)
          · exact .inr ⟨rest, left.trans suffix, same⟩
        · contradiction
      · next usage rest filled turned =>
        split at read
        · contradiction
        · obtain rfl := Except.error.inj read
          have ends := ends.imp_right And.left
          obtain ⟨body, rfl, front, left⟩ :=
            exists_carriage_of_turn single ends turned (fun none => filled none)
          refine .inr ⟨body ++ later.flatten, ⟨front, ?_⟩, rfl⟩
          rw [List.flatten_cons, ← left, List.append_assoc]
          rfl

/-- Where the usage block of a text is refused. -/
theorem refused_of_ofText {text : List Char} {fault : Fault} (read : ofText text = .error fault) :
    Refused text fault := by
  rw [ofText] at read
  split at read
  · next header =>
    obtain rfl := Except.error.inj read
    exact .header header
  · next rest header =>
    obtain ⟨anyway, list, lined, suffix, same⟩ := exists_afterHeader rest
    have inside : list.flatten <:+ text := suffix.trans (findHeader_suffix header)
    rw [same] at read
    split at read
    · next reason failed =>
      obtain rfl := Except.error.inj read
      rcases refused_of_ofLines lined failed with stands | ⟨left, carriage, rfl⟩
      · exact .line (stands.of_suffix inside)
      · exact .stray (carriage.trans inside)
    · next block done =>
      split at read
      · obtain rfl := Except.error.inj read
        exact .empty ((ofLines_eq_ok_iff.1 done).suffix.trans inside)
      · contradiction

/-- Usage lines that are refused are refused at the same place with more lines after them. -/
theorem ofLines_append_refused {anyway : Bool} {list : List (List Char)} {fault : Fault}
    (refused : ofLines anyway list = .error fault) (more : List (List Char)) :
    ofLines anyway (list ++ more) = .error (fault.followedBy more.flatten) := by
  induction list generalizing anyway with
  | nil => contradiction
  | cons line later ih =>
    -- the first line is taken alike, with its fault before all later lines
    have first : turn line (later ++ more) =
        (turn line later).mapError (Fault.followedBy · more.flatten) := by
      rw [turn, turn]
      cases usageLine line with
      | error met => simp [Except.mapError, Fault.followedBy]
      | ok found => rfl
    rw [ofLines] at refused
    rw [List.cons_append, ofLines, first]
    split at refused
    · contradiction
    · next counts =>
      rw [if_neg counts]
      rcases turned : turn line later with met | ⟨usage, rest⟩
      · rw [turned] at refused
        obtain rfl := Except.error.inj refused
        rfl
      · rw [turned] at refused
        cases rest with
        | nil =>
          dsimp only [Except.mapError] at refused ⊢
          split at refused
          · next reason failed =>
            obtain rfl := Except.error.inj refused
            rw [ih failed]
          · contradiction
        | cons c rest =>
          dsimp only [Except.mapError] at refused ⊢
          split at refused
          · contradiction
          · next goesOn =>
            obtain rfl := Except.error.inj refused
            rw [if_neg goesOn, Fault.followedBy, List.flatten_append, List.append_assoc]

/-- A closed text of which something is left where its usage block is refused is refused there with
more text after it. -/
theorem ofText_append_refused {text : List Char} {fault : Fault} (closed : Closed text)
    (refused : ofText text = .error fault) (filled : fault.rest ≠ []) (later : List Char) :
    ofText (text ++ later) = .error (fault.followedBy later) := by
  obtain ⟨body, rfl⟩ := List.getLast?_eq_some_iff.1 closed
  rw [ofText, afterHeader?, findHeader_append_feed] at refused
  rw [ofText, afterHeader?, List.append_assoc, List.singleton_append, findHeader_append_feed]
  cases header : findHeader false body with
  | none =>
    rw [header] at refused
    obtain rfl := Except.error.inj refused
    contradiction
  | some rest =>
    rw [header] at refused
    dsimp only [Option.map_some, Option.some_or] at refused ⊢
    have closed : Closed (rest ++ ['\n']) := List.getLast?_concat ..
    have joined : rest ++ '\n' :: later = rest ++ ['\n'] ++ later := by simp
    rw [joined]
    cases read : afterHeader (rest ++ ['\n']) with
    | error met =>
      rw [read] at refused
      obtain rfl := Except.error.inj refused
      obtain ⟨anyway, list, -, -, same, more⟩ := exists_afterHeader_append closed
      rw [more, ofLines_append_refused (same.symm.trans read), lines_flatten]
    | ok block =>
      rw [read] at refused
      dsimp only at refused
      split at refused
      · next none =>
        obtain rfl := Except.error.inj refused
        -- no usage line, but a line that ends the block, so that further lines only remain
        have remains : block.remaining.flatten ≠ [] := filled
        have some : block.remaining ≠ [] := fun none => remains (by rw [none]; rfl)
        rw [(afterHeader_append closed (fun none => absurd none some) read).1]
        dsimp only
        rw [if_pos none, List.flatten_append, lines_flatten,
          Fault.followedBy_expected _ (.inl remains)]
      · contradiction

end Block

end Usage

end Synopsis

import Synopsis.Proofs.Usage.Loop
import Synopsis.Proofs.Usage.Refused

/-!
# Stalled usage blocks

The usage lines of a block are those that the loop over the text finds. Dividing the text into lines
first gives what the loop ends with, and a stray carriage return where the loop never ends.
-/
namespace Synopsis.Usage

open Text

/-- The usage lines found and the text that is left where the loop is entered: there may be a usage
line behind the header, and otherwise the rest of that line is skipped. -/
def enterBlock (text : List Char) : Except Fault (List Fragment × List Char) :=
  if atLineEnd (skipBlanks text) then .ok ([], skipLine text)
  else
    match usageLine text with
    | .error fault => .error fault
    | .ok (usage, rest) => .ok ([usage], skipBreak rest)

/-- Whether the first line of a text ends the block does not depend on what ends that line. -/
theorem endsBlock_firstLine {text line : List Char} {later : List (List Char)}
    (first : lines text = line :: later) : endsBlock (firstLine text) = endsBlock line := by
  obtain ⟨ending, rfl, white⟩ := firstLine_of_lines first
  exact (endsBlock_append white (firstLine text)).symm

/-- Another usage line is read where the first line does not end the block. -/
theorem goesOn_iff {text line : List Char} {later : List (List Char)}
    (first : lines text = line :: later) : goesOn text = true ↔ endsBlock line = false := by
  have filled : text ≠ [] := by
    rintro rfl
    contradiction
  rw [goesOn, endsBlock_firstLine first]
  simp [filled]

/-- A line break is skipped in a text with more after it as it is in the text. -/
theorem skipBreak_append {text later : List Char} (whole : '\n' ∈ text ∨ later = []) :
    skipBreak (text ++ later) = skipBreak text ++ later := by
  rcases whole with feed | rfl
  · match text with
    | [] => contradiction
    | [c] =>
      obtain rfl := List.mem_singleton.1 feed
      rfl
    | c :: d :: more =>
      by_cases isFeed : c = '\n'
      · subst isFeed
        rfl
      · by_cases both : c = '\r' ∧ d = '\n'
        · obtain ⟨rfl, rfl⟩ := both
          rfl
        · have stays : ∀ rest, skipBreak (c :: d :: rest) = c :: d :: rest := by
            intro rest
            apply skipBreak_eq_self
            · intro after same
              exact isFeed (List.cons.inj same).1
            · intro after same
              have ⟨first, next⟩ := List.cons.inj same
              exact both ⟨first, (List.cons.inj next).1⟩
          exact (stays (more ++ later)).trans (congrArg (· ++ later) (stays more)).symm
  · rw [List.append_nil, List.append_nil]

/-- A line is taken as the usage line at the front of a text that begins with the line. -/
theorem turn_of_opened {text returns feed later : List Char}
    (opened : Opened text returns feed later) :
    (∀ fault, usageLine text = .error fault →
      turn (firstLine text ++ returns ++ feed) (lines later) = .error fault) ∧
    ∀ usage rest, usageLine text = .ok (usage, rest) →
      ∃ stop, turn (firstLine text ++ returns ++ feed) (lines later) = .ok (usage, stop) ∧
        skipBreak rest = stop ++ later ∧ stop <:+ firstLine text ++ returns ++ feed := by
  have ⟨stops, across, last⟩ :
      Stops feed ∧ Stops (feed ++ later) ∧ (feed ≠ [] ∨ lines later = []) := by
    rcases opened.ends with rfl | ⟨rfl, rfl⟩
    · exact ⟨.feed _, .feed _, .inl (by decide)⟩
    · exact ⟨.nil, .nil, .inr rfl⟩
  have whole := usageLine_keeps (keepsLines_append across) (firstLine text ++ returns)
  rw [← opened.joined] at whole
  have line := usageLine_keeps (keepsLines_append stops) (firstLine text ++ returns)
  rcases own : usageLine (firstLine text ++ returns) with met | ⟨usage, stop⟩
  · rw [own] at whole
    have turned := turn_refused stops last own
    rw [lines_flatten] at turned
    constructor
    · intro fault refused
      rw [turned]
      exact whole.symm.trans refused
    · intro usage rest read
      exact absurd (whole.symm.trans read) (by simp [changed])
  · rw [own] at whole line
    constructor
    · intro fault refused
      exact absurd (whole.symm.trans refused) (by simp [changed])
    · intro other rest read
      obtain ⟨rfl, rfl⟩ := ok_pair_inj (whole.symm.trans read)
      have feeds : '\n' ∈ stop ++ feed ∨ later = [] := by
        rcases opened.ends with rfl | ⟨-, none⟩
        · exact .inl (by simp)
        · exact .inr none
      refine ⟨skipBreak (stop ++ feed), turn_eq_ok_iff.2 ⟨stop ++ feed, line, rfl⟩, ?_,
        (skipBreak_suffix _).trans (usageLine_suffix line)⟩
      rw [← skipBreak_append feeds, List.append_assoc]

namespace Block

/-- Where the first line of a text is refused as a usage line, so are its lines. -/
theorem ofLines_refused {anyway : Bool} {text : List Char} {fault : Fault} (filled : text ≠ [])
    (counts : (!anyway && endsBlock (firstLine text)) = false)
    (refused : usageLine text = .error fault) : ofLines anyway (lines text) = .error fault := by
  obtain ⟨returns, feed, opened⟩ := exists_opened filled
  have turned := (turn_of_opened opened).1 fault refused
  rw [endsBlock_firstLine opened.lines] at counts
  rw [opened.lines, ofLines, counts, turned]
  rfl

/-- Where a text does not go on with a usage line, no usage lines are read and all of it remains. -/
theorem ofLines_stopped {text : List Char} (stops : goesOn text = false) :
    ofLines false (lines text) = .ok ⟨[], lines text⟩ := by
  cases first : lines text with
  | nil => rfl
  | cons line later =>
    have ends : endsBlock line = true := by
      by_contra other
      have goes := (goesOn_iff first).2 (Bool.eq_false_iff.2 other)
      exact absurd (stops.symm.trans goes) (by decide)
    simp [ofLines, ends]

/-- The lines of a text with a carriage return next are refused if they do not end the block. -/
theorem ofLines_carriage {rest : List Char} (goes : goesOn ('\r' :: rest) = true) :
    ofLines false (lines ('\r' :: rest)) = .error ⟨.strayReturn, '\r' :: rest⟩ := by
  obtain ⟨returns, feed, opened⟩ := exists_opened (List.cons_ne_nil '\r' rest)
  obtain ⟨stop, turned, left, -⟩ := (turn_of_opened opened).2 _ _ (usageLine_carriage rest)
  rw [skipBreak_carriage goes] at left
  have joined := opened.joined
  rw [← List.append_assoc] at joined
  have same : stop = firstLine ('\r' :: rest) ++ returns ++ feed :=
    List.append_cancel_right (left.symm.trans joined)
  have counts := (goesOn_iff opened.lines).1 goes
  rw [← same] at counts turned
  rw [opened.lines, ← same, ofLines, turned, counts]
  cases stop with
  | nil => contradiction
  | cons c more =>
    simp only [counts, lines_flatten, ← left]
    rfl

/-- Where a usage line is read at the front of a text, the other usage lines are read from the text
that is left. -/
theorem ofLines_turn {anyway : Bool} {text rest : List Char} {usage : Fragment} (filled : text ≠ [])
    (counts : (!anyway && endsBlock (firstLine text)) = false)
    (read : usageLine text = .ok (usage, rest)) :
    ofLines anyway (lines text) = (ofLines false (lines (skipBreak rest))).map (push usage) := by
  obtain ⟨returns, feed, opened⟩ := exists_opened filled
  obtain ⟨stop, turned, left, suffix⟩ := (turn_of_opened opened).2 usage rest read
  rw [endsBlock_firstLine opened.lines] at counts
  rw [left, opened.lines, ofLines, counts, turned]
  cases stop with
  | nil =>
    rw [List.nil_append]
    cases ofLines false (lines (skipLine text)) <;> rfl
  | cons c more =>
    -- part of the line is left, and it is a line of what is left
    have lined := lined_lines text
    rw [opened.lines] at lined
    have first := (lined.of_suffix suffix (List.cons_ne_nil c more)).lines_flatten
    rw [List.flatten_cons, lines_flatten] at first
    by_cases ends : endsBlock (c :: more) = true
    · rw [first, ofLines]
      simp only [ends]
      rfl
    · have ends := Bool.eq_false_iff.2 ends
      have feeds : feed = ['\n'] ∨ feed = [] := opened.ends.imp_right And.left
      obtain ⟨body, same, -⟩ :=
        exists_carriage_of_turn opened.single feeds turned (List.cons_ne_nil c more)
      have goes := (goesOn_iff first).2 ends
      rw [same, List.cons_append] at goes ⊢
      rw [same] at ends
      rw [ofLines_carriage goes]
      simp only [ends, lines_flatten]
      rfl

/-- How the loop of usage lines goes on where its lines are read with a result. -/
inductive Follows (found : List Fragment) (text : List Char) : Except Fault Block → Prop where
  /-- The loop ends with the usage lines and the text that remains. -/
  | ends {block : Block}
      (ends : usageLoop.Ends (found, text) (.ok (found ++ block.usages, block.remaining.flatten))) :
      Follows found text (.ok block)
  /-- The loop ends with a fault. -/
  | refused {fault : Fault} (known : fault.cause ≠ .strayReturn)
      (ends : usageLoop.Ends (found, text) (.error fault)) : Follows found text (.error fault)
  /-- The loop never ends. -/
  | stalls {rest : List Char} (never : ∀ result, ¬ usageLoop.Ends (found, text) result) :
      Follows found text (.error ⟨.strayReturn, rest⟩)

/-- The loop goes on after a turn as it does from the next state. -/
theorem Follows.again {found : List Fragment} {text rest : List Char} {usage : Fragment}
    {result : Except Fault Block}
    (turn : usageLoop (found, text) = .again (found ++ [usage], rest))
    (follows : Follows (found ++ [usage]) rest result) :
    Follows found text (result.map (push usage)) := by
  cases follows with
  | ends ends =>
    rw [List.append_assoc] at ends
    exact .ends (.again turn ends)
  | refused known ends => exact .refused known (.again turn ends)
  | stalls never =>
    refine .stalls fun result ends => ?_
    cases ends with
    | leave left => exact absurd (turn.symm.trans left) (by simp)
    | again also more =>
      rw [← Turn.again.inj (turn.symm.trans also)] at more
      exact never result more

/-- The fault of a usage line is no stray carriage return. -/
theorem cause_of_usageLine {line : List Char} {fault : Fault}
    (refused : usageLine line = .error fault) : fault.cause ≠ .strayReturn := by
  obtain ⟨what, found⟩ := (usageLine_stands refused).found
  rw [found]
  exact nofun

/-- The loop of usage lines ends with what the lines of its text are read as, and never ends where
they are cut by a carriage return. -/
theorem follows_ofLines (found : List Fragment) (text : List Char) :
    Follows found text (ofLines false (lines text)) := by
  -- induction on the length of the text, which a turn makes smaller but at a carriage return
  induction size : text.length using Nat.strongRecOn generalizing found text with
  | ind length ih =>
    by_cases goes : goesOn text = true
    · have filled : text ≠ [] := by
        rintro rfl
        contradiction
      have counts : (!false && endsBlock (firstLine text)) = false := by
        simpa [goesOn, filled] using goes
      rcases read : usageLine text with fault | ⟨usage, rest⟩
      · rw [ofLines_refused filled counts read]
        exact .refused (cause_of_usageLine read) (.leave (by simp [usageLoop, goes, read]))
      · by_cases carriage : ∃ more, text = '\r' :: more
        · obtain ⟨more, rfl⟩ := carriage
          rw [ofLines_carriage goes]
          exact .stalls (usageLoop_stalls found goes)
        · have advances := usageLine_advances goes (fun more same => carriage ⟨more, same⟩) read
          have turn : usageLoop (found, text) = .again (found ++ [usage], skipBreak rest) := by
            simp [usageLoop, goes, read]
          rw [ofLines_turn filled counts read]
          exact .again turn (ih _ (size ▸ advances.shorter) _ _ rfl)
    · have left : usageLoop (found, text) = .leave (.ok (found, text)) := by
        simp [usageLoop, goes]
      rw [ofLines_stopped (Bool.eq_false_iff.2 goes)]
      refine .ends (.leave ?_)
      rw [List.append_nil, lines_flatten]
      exact left

/-- The usage lines of a block are those where the loop is entered and those read in the loop. -/
theorem afterHeader_cases (text : List Char) :
    (∃ fault, enterBlock text = .error fault ∧ afterHeader text = .error fault ∧
      fault.cause ≠ .strayReturn) ∨
    ∃ usages rest, enterBlock text = .ok (usages, rest) ∧
      afterHeader text =
        (ofLines false (lines rest)).map fun block => ⟨usages ++ block.usages, block.remaining⟩ := by
  rw [enterBlock, afterHeader]
  by_cases bare : atLineEnd (skipBlanks text) = true
  · rw [if_pos bare, if_pos bare, ← lines_skipLine]
    refine .inr ⟨[], skipLine text, rfl, ?_⟩
    cases ofLines false (lines (skipLine text)) <;> rfl
  · have filled : text ≠ [] := by
      rintro rfl
      exact bare rfl
    rw [if_neg bare, if_neg bare]
    rcases read : usageLine text with fault | ⟨usage, rest⟩
    · exact .inl ⟨fault, rfl, ofLines_refused filled rfl read, cause_of_usageLine read⟩
    · exact .inr ⟨[usage], skipBreak rest, rfl, ofLines_turn filled rfl read⟩

/-- A usage line behind the header is refused with its block. -/
theorem afterHeader_of_enterBlock {text : List Char} {fault : Fault}
    (refused : enterBlock text = .error fault) : afterHeader text = .error fault := by
  rcases afterHeader_cases text with ⟨other, also, same, -⟩ | ⟨usages, rest, entered, -⟩
  · rw [same, Except.error.inj (also.symm.trans refused)]
  · exact absurd (entered.symm.trans refused) (by simp)

/-- What a usage block is read as: the usage lines and the text that remains. -/
def shown (block : Block) : List Fragment × List Char := (block.usages, block.remaining.flatten)

/-- The loop ends with what the usage block is read as, unless a carriage return cuts it. -/
theorem usageLoop_ends_iff {text : List Char} {state : List Fragment × List Char}
    (entered : enterBlock text = .ok state) (outcome : Except Fault (List Fragment × List Char)) :
    usageLoop.Ends state outcome ↔
      (afterHeader text).map shown = outcome ∧
        ∀ rest, afterHeader text ≠ .error ⟨.strayReturn, rest⟩ := by
  rcases afterHeader_cases text with ⟨fault, refused, -⟩ | ⟨usages, rest, same, read⟩
  · exact absurd (refused.symm.trans entered) (by simp)
  · obtain rfl := Except.ok.inj (same.symm.trans entered)
    have follows := follows_ofLines usages rest
    rw [read]
    generalize ofLines false (lines rest) = result at follows
    cases follows with
    | @ends block ends =>
      constructor
      · intro other
        exact ⟨ends.unique other, fun rest same => by contradiction⟩
      · rintro ⟨rfl, -⟩
        exact ends
    | @refused fault known ends =>
      constructor
      · intro other
        exact ⟨ends.unique other, fun rest same => known (by rw [Except.error.inj same])⟩
      · rintro ⟨rfl, -⟩
        exact ends
    | stalls never =>
      constructor
      · intro other
        exact absurd other (never outcome)
      · rintro ⟨-, other⟩
        exact absurd rfl (other _)

/-- The loop of usage lines behind the header of a text never ends. -/
def Stalls (text : List Char) : Prop :=
  ∃ after state, afterHeader? text = some after ∧ enterBlock after = .ok state ∧
    ∀ outcome, ¬ usageLoop.Ends state outcome

/-- The lines behind a header are refused for a stray carriage return exactly where the loop never
ends. -/
theorem afterHeader_strayReturn_iff {text : List Char} :
    (∃ rest, afterHeader text = .error ⟨.strayReturn, rest⟩) ↔
      ∃ state, enterBlock text = .ok state ∧ ∀ outcome, ¬ usageLoop.Ends state outcome := by
  constructor
  · rintro ⟨rest, refused⟩
    rcases afterHeader_cases text with ⟨fault, -, same, known⟩ | ⟨usages, left, entered, -⟩
    · exact absurd (Except.error.inj (same.symm.trans refused)) fun stray => known (by rw [stray])
    · refine ⟨_, entered, fun outcome ends => ?_⟩
      exact ((usageLoop_ends_iff entered outcome).1 ends).2 rest refused
  · rintro ⟨state, entered, never⟩
    by_contra none
    exact never _ ((usageLoop_ends_iff entered _).2 ⟨rfl, fun rest same => none ⟨rest, same⟩⟩)

/-- A usage block is refused for a stray carriage return exactly where its loop never ends. -/
theorem ofText_strayReturn_iff {text : List Char} :
    (∃ rest, ofText text = .error ⟨.strayReturn, rest⟩) ↔ Stalls text := by
  cases header : afterHeader? text with
  | none => simp [ofText, Stalls, header]
  | some after =>
    have behind : (∃ rest, ofText text = .error ⟨.strayReturn, rest⟩) ↔
        ∃ rest, afterHeader after = .error ⟨.strayReturn, rest⟩ := by
      rcases read : afterHeader after with fault | block
      · simp [ofText, header, read]
      · by_cases empty : block.usages = []
        · simp [ofText, header, read, empty, Fault.expected]
        · simp [ofText, header, read, empty]
    rw [behind, afterHeader_strayReturn_iff]
    simp [Stalls, header]

/-- The loop of usage lines ends where every carriage return of a text has a line feed after it. -/
theorem not_stalls_of_paired {text : List Char} (paired : Paired text) : ¬ Stalls text := by
  rintro ⟨after, state, header, entered, never⟩
  have behind := paired.of_suffix (findHeader_suffix header)
  have left : state.2 <:+ after := by
    rw [enterBlock] at entered
    split at entered
    · obtain rfl := Except.ok.inj entered
      exact skipLine_suffix after
    · split at entered
      · contradiction
      · next usage rest read =>
        obtain rfl := Except.ok.inj entered
        exact (skipBreak_suffix rest).trans (usageLine_suffix read)
  obtain ⟨outcome, ends⟩ := exists_ends_of_paired (behind.of_suffix left)
  exact never outcome ends

end Block

end Synopsis.Usage

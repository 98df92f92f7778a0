import Synopsis.Proofs.Description.Progress
import Synopsis.Proofs.Manual.Refused
import Synopsis.Proofs.Usage.Bound
import Synopsis.Proofs.Usage.Stall

/-!
# Progress in manuals

Every loop in reading a manual reads something of the text in each turn and ends with what the
manual is read as, but for one: the loop of usage lines never ends where a carriage return without a
line feed cuts a usage line. A manual is refused for a stray carriage return exactly there.
-/
namespace Synopsis.Manual

open Text
open Usage (expression expressionWith sequence alternatives lineAlternatives sequenceLoop
  alternativesLoop usageLine usageLoop goesOn enterBlock Paired Reader)
open Usage.Block (Stalls shown afterHeader ofText_strayReturn_iff not_stalls_of_paired)
open Description (leadingLoop fromRecord nextRecord recordLoop spellingLoop moreSpellings)

/-- The parts of a text are refused for a stray carriage return where its usage block is. -/
theorem parts_strayReturn_iff {text : List Char} {rest : List Char} :
    parts text = .error ⟨.strayReturn, rest⟩ ↔
      Usage.Block.ofText text = .error ⟨.strayReturn, rest⟩ := by
  rcases read : Usage.Block.ofText text with fault | block
  · simp [parts, read]
  · rcases described : Description.ofLines block.remaining with fault | entries
    · have lined := (Usage.Block.remaining_of_ofText read).1
      have known : fault.cause ≠ .strayReturn := by
        cases Description.refused_of_ofLines lined described with
        | spelling stands =>
          obtain ⟨what, found⟩ := stands.found
          rw [found]
          simp
        | unclosed tag => simp
      constructor
      · intro refused
        rw [parts, read] at refused
        dsimp only at refused
        rw [described] at refused
        exact absurd (congrArg Fault.cause (Except.error.inj refused)) known
      · intro refused
        contradiction
    · simp [parts, read, described]

/-- A located result is refused for the cause for which the result is. -/
theorem located_eq_error {α : Type} {text : List Char} {result : Except Fault α} {cause : Cause} :
    (∃ position, located text result = .error ⟨position, cause⟩) ↔
      ∃ rest, result = .error ⟨cause, rest⟩ := by
  rcases result with ⟨found, rest⟩ | value
  · simp [located, Fault.diagnostic]
  · simp [located]

/-- Each way to read a manual is refused for a stray carriage return exactly where the loop of usage
lines never ends. -/
theorem strayReturn_iff (text : String) :
    ((∃ position, readPattern text = .error ⟨position, .strayReturn⟩) ↔ Stalls text.toList) ∧
    ((∃ position, readCatalog text = .error ⟨position, .strayReturn⟩) ↔ Stalls text.toList) ∧
    ((∃ position, readInterface text = .error ⟨position, .strayReturn⟩) ↔ Stalls text.toList) := by
  simp only [readPattern, readCatalog, readInterface, located_eq_error, ← ofText_strayReturn_iff]
  refine ⟨?_, ?_, ?_⟩
  · rcases Usage.Block.ofText text.toList with fault | block <;> simp
  · simp only [← parts_strayReturn_iff]
    rcases parts text.toList with fault | found <;> simp
  · simp only [← parts_strayReturn_iff]
    rcases parts text.toList with fault | found <;> simp

/-- Reading a manual makes progress. An expression that is accepted reads something of the text, and
the expressions in it are read from less of the text. Every turn of the loops for sequences, for
alternatives, for the lines before the first record, for records and for their spellings reads
something, and each of these loops ends with what is read. A turn of the loop for usage lines fails
or reads something unless a carriage return comes next; there it takes an empty usage line and reads
nothing, and the loop never ends. Otherwise it ends with what the block is read as. A manual is
refused for a stray carriage return exactly where the loop never ends, which cannot be if every
carriage return has a line feed after it. -/
theorem readers_progress :
    (∀ {text rest fragment}, expression text = .accepted fragment rest → Advances text rest) ∧
    (∀ {text : List Char} {read : Reader},
      (∀ rest, Advances text rest → read rest = expression rest) →
        expressionWith read text = expression text) ∧
    (∀ text, (sequenceLoop expression).Reads Prod.snd ([], text) (sequence expression text)) ∧
    (∀ {text branch rest}, sequence expression text = .ok (branch, rest) →
      (alternativesLoop expression).Reads Prod.snd ([branch], rest)
        (alternatives expression text)) ∧
    (∀ text, lineAlternatives text = alternatives expression text) ∧
    -- descriptions
    (∀ text, leadingLoop.Reads id text (fromRecord text)) ∧
    (∀ text, text ≠ [] → Advances text (nextRecord text)) ∧
    (∀ catalog text, recordLoop.Reads Prod.snd (catalog, fromRecord text)
      ((Description.ofLines (lines text)).map catalog.describeAll)) ∧
    (∀ found text, spellingLoop.Reads Prod.snd (found, text)
      ((moreSpellings text.length text).map (found ++ ·) id)) ∧
    -- usage lines
    (∀ found text, goesOn text = true →
      (∀ more, text = '\r' :: more →
        usageLoop (found, text) = .again (found ++ [.sequence []], text) ∧
        ∀ outcome, ¬ usageLoop.Ends (found, text) outcome) ∧
      ((∀ more, text ≠ '\r' :: more) →
        (∃ fault, usageLoop (found, text) = .leave (.error fault)) ∨
        ∃ usage rest, usageLoop (found, text) = .again (found ++ [usage], rest) ∧
          Advances text rest)) ∧
    (∀ text,
      (∀ fault, enterBlock text = .error fault → afterHeader text = .error fault) ∧
      ∀ state, enterBlock text = .ok state → ∀ outcome, usageLoop.Ends state outcome ↔
        (afterHeader text).map shown = outcome ∧
          ∀ rest, afterHeader text ≠ .error ⟨.strayReturn, rest⟩) ∧
    ∀ text : String,
      ((∃ position, readPattern text = .error ⟨position, .strayReturn⟩) ↔ Stalls text.toList) ∧
      ((∃ position, readCatalog text = .error ⟨position, .strayReturn⟩) ↔ Stalls text.toList) ∧
      ((∃ position, readInterface text = .error ⟨position, .strayReturn⟩) ↔ Stalls text.toList) ∧
      (Paired text.toList → ¬ Stalls text.toList) := by
  refine ⟨Usage.expression_advances, Usage.expressionWith_eq, fun text => ?_, fun first => ?_,
    Usage.lineAlternatives_eq, fun text => ?_, fun text => Description.nextRecord_advances,
    fun catalog text => ?_, fun found text => ?_, fun found text goes => ⟨?_, ?_⟩, fun text => ?_,
    fun text => ?_⟩
  · exact ⟨Usage.sequenceLoop_progresses Usage.expression_advances,
      Usage.sequenceLoop_ends Usage.expression_advances text⟩
  · exact ⟨Usage.alternativesLoop_progresses Usage.expression_remains,
      Usage.alternativesLoop_ends Usage.expression_remains first⟩
  · exact ⟨Description.leadingLoop_progresses, Description.leadingLoop_ends text⟩
  · have ends := Description.recordLoop_ends catalog (Description.opens_fromRecord text)
    rw [Description.ofLines_fromRecord] at ends
    exact ⟨Description.recordLoop_progresses, ends⟩
  · exact ⟨Description.spellingLoop_progresses,
      Description.spellingLoop_ends found (Nat.le_refl text.length)⟩
  · rintro more rfl
    exact ⟨Usage.usageLoop_carriage found goes, Usage.usageLoop_stalls found goes⟩
  · exact Usage.usageLoop_turns found goes
  · exact ⟨fun fault => Usage.Block.afterHeader_of_enterBlock, fun state entered =>
      Usage.Block.usageLoop_ends_iff entered⟩
  · obtain ⟨pattern, catalog, interface⟩ := strayReturn_iff text
    exact ⟨pattern, catalog, interface, not_stalls_of_paired⟩

/-- Two carriage returns behind the name of the program make the loop stall. It ends where each of
them has a line feed after it. -/
theorem readers_progress_returns :
    Stalls "Usage: p\r\rgo".toList ∧
      usageLoop ([.sequence []], "\r\rgo".toList) =
        .again ([.sequence [], .sequence []], "\r\rgo".toList) ∧
      Paired "Usage: p\r\n  p [-a | (go)...]\r\n\r\n -a, --all\r\n".toList ∧
      ¬ Stalls "Usage: p\r\n  p [-a | (go)...]\r\n\r\n -a, --all\r\n".toList := by
  have ⟨_, _, _, _, _, _, _, _, _, turns, _, texts⟩ := readers_progress
  have refused : readInterface "Usage: p\r\rgo" = .error ⟨⟨1, 9⟩, .strayReturn⟩ := by
    decide +kernel
  have goes : goesOn "\r\rgo".toList = true := by decide +kernel
  have paired : Paired "Usage: p\r\n  p [-a | (go)...]\r\n\r\n -a, --all\r\n".toList := by
    decide +kernel
  exact ⟨(texts _).2.2.1.1 ⟨_, refused⟩, ((turns _ _ goes).1 _ rfl).1, paired,
    (texts _).2.2.2 paired⟩

end Synopsis.Manual

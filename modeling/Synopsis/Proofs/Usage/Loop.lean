import Mathlib.Data.List.Infix
import Synopsis.Proofs.Loop
import Synopsis.Proofs.Text.FirstLine
import Synopsis.Proofs.Usage.Block

/-!
# The loop of usage lines

Usage lines are read one after the other from the text that is left after the header. Every turn of
this loop fails or reads something, unless the text that is left begins with a carriage return: such
a turn takes an empty usage line and reads nothing, so that the loop never ends. No line feed comes
next there, so the loop ends where every carriage return has a line feed after it.
-/
namespace Synopsis.Usage

open Text

/-- Whether another usage line is read: the text goes on, and its first line does not end the
block. -/
def goesOn (text : List Char) : Bool := !text.isEmpty && !endsBlock (firstLine text)

/-- The loop that reads usage lines, over those found and the text that is left. -/
def usageLoop : Loop (List Fragment × List Char) (Except Fault (List Fragment × List Char))
  | (found, text) =>
    if goesOn text then
      match usageLine text with
      | .error fault => .leave (.error fault)
      | .ok (usage, rest) => .again (found ++ [usage], skipBreak rest)
    else .leave (.ok (found, text))

/-- A usage line that begins with a carriage return is empty, and the carriage return is left. -/
theorem usageLine_carriage (rest : List Char) :
    usageLine ('\r' :: rest) = .ok (.sequence [], '\r' :: rest) := by
  have empty : usageLine [] = .ok (.sequence [], []) := by decide +kernel
  have keeps := usageLine_keeps (keepsLines_append (.carriage rest)) []
  rwa [empty] at keeps

/-- A carriage return with a line feed is the end of an empty line, which ends the block. -/
theorem goesOn_feed (rest : List Char) : goesOn ('\r' :: '\n' :: rest) = false := by
  have ended : endsBlock (firstLine ('\r' :: '\n' :: rest)) = true := rfl
  rw [goesOn, ended, Bool.not_true, Bool.and_false]

/-- Where a carriage return comes next and the block does not end, no line break is skipped. -/
theorem skipBreak_carriage {rest : List Char} (goes : goesOn ('\r' :: rest) = true) :
    skipBreak ('\r' :: rest) = '\r' :: rest := by
  apply skipBreak_eq_self
  · intro more same
    exact absurd (List.cons.inj same).1 (by decide)
  · intro more same
    rw [same, goesOn_feed] at goes
    contradiction

/-- A turn at a carriage return takes an empty usage line and reads nothing. -/
theorem usageLoop_carriage (found : List Fragment) {rest : List Char}
    (goes : goesOn ('\r' :: rest) = true) :
    usageLoop (found, '\r' :: rest) = .again (found ++ [.sequence []], '\r' :: rest) := by
  simp only [usageLoop, goes, usageLine_carriage, skipBreak_carriage goes, if_true]

/-- The loop never ends once it is at a carriage return. -/
theorem usageLoop_stalls (found : List Fragment) {rest : List Char}
    (goes : goesOn ('\r' :: rest) = true) (result : Except Fault (List Fragment × List Char)) :
    ¬ usageLoop.Ends (found, '\r' :: rest) result := by
  apply Loop.not_ends (fun state => state.2 = '\r' :: rest) _ rfl
  rintro ⟨usages, text⟩ rfl
  exact ⟨_, usageLoop_carriage usages goes, rfl⟩

/-- Another usage line reads something where no carriage return comes next. -/
theorem usageLine_advances {text rest : List Char} {usage : Fragment} (goes : goesOn text = true)
    (other : ∀ more, text ≠ '\r' :: more) (read : usageLine text = .ok (usage, rest)) :
    Advances text (skipBreak rest) := by
  have stops := (covers_of_usageLine read).2
  have moved : rest ≠ text := by
    rintro rfl
    cases stops with
    | nil => contradiction
    | feed more => contradiction
    | carriage more => exact other more rfl
  exact (advances_of_ne (usageLine_suffix read) moved).more (skipBreak_suffix rest)

/-- A turn that goes on takes a usage line and skips the line break after it. -/
theorem usageLoop_eq_again_iff {found : List Fragment} {text : List Char}
    {next : List Fragment × List Char} :
    usageLoop (found, text) = .again next ↔
      goesOn text = true ∧ ∃ usage rest, usageLine text = .ok (usage, rest) ∧
        next = (found ++ [usage], skipBreak rest) := by
  by_cases goes : goesOn text = true
  · rcases read : usageLine text with fault | ⟨usage, rest⟩
    · simp [usageLoop, goes, read]
    · simp [usageLoop, goes, read, eq_comm]
  · simp [usageLoop, goes]

/-- A turn where no carriage return comes next and the block does not end fails or reads
something. -/
theorem usageLoop_turns (found : List Fragment) {text : List Char} (goes : goesOn text = true)
    (other : ∀ more, text ≠ '\r' :: more) :
    (∃ fault, usageLoop (found, text) = .leave (.error fault)) ∨
      ∃ usage rest, usageLoop (found, text) = .again (found ++ [usage], rest) ∧
        Advances text rest := by
  rcases read : usageLine text with fault | ⟨usage, rest⟩
  · exact .inl ⟨fault, by simp [usageLoop, goes, read]⟩
  · exact .inr ⟨usage, skipBreak rest, by simp [usageLoop, goes, read],
      usageLine_advances goes other read⟩

/-- Every carriage return has a line feed after it. -/
def Paired (text : List Char) : Prop :=
  ∀ rest, '\r' :: rest <:+ text → rest.head? = some '\n'

/-- The ends of a text show whether its carriage returns have line feeds after them. -/
theorem paired_iff {text : List Char} :
    Paired text ↔
      ∀ left ∈ text.tails, left.head? = some '\r' → left.tail.head? = some '\n' := by
  constructor
  · intro paired left ends first
    obtain ⟨rest, rfl⟩ := List.head?_eq_some_iff.1 first
    exact paired rest ((List.mem_tails _ text).1 ends)
  · intro every rest suffix
    exact every _ ((List.mem_tails _ text).2 suffix) rfl

instance (text : List Char) : Decidable (Paired text) := decidable_of_iff' _ paired_iff

/-- The end of a text has no other carriage returns than the text. -/
theorem Paired.of_suffix {text rest : List Char} (paired : Paired text) (suffix : rest <:+ text) :
    Paired rest := fun left more => paired left (more.trans suffix)

/-- The loop ends where every carriage return has a line feed after it. -/
theorem exists_ends_of_paired {state : List Fragment × List Char} (paired : Paired state.2) :
    ∃ outcome, usageLoop.Ends state outcome := by
  apply Loop.exists_ends (fun state => Paired state.2) Prod.snd _ paired
  rintro ⟨found, text⟩ next paired turn
  obtain ⟨goes, usage, rest, read, rfl⟩ := usageLoop_eq_again_iff.1 turn
  have other : ∀ more, text ≠ '\r' :: more := by
    rintro more rfl
    obtain ⟨last, rfl⟩ := List.head?_eq_some_iff.1 (paired more (List.suffix_refl _))
    rw [goesOn_feed] at goes
    contradiction
  have advances := usageLine_advances goes other read
  exact ⟨paired.of_suffix advances.suffix, advances⟩

end Synopsis.Usage

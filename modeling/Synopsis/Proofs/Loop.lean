import Synopsis.Proofs.Text.Front

/-!
# Loops

A loop passes from state to state, one turn after the other, until a turn leaves it with a result.
A loop over a text ends if every turn that does not leave it reads something of the text that is
left. A loop in which such a turn only ever leads to another one never ends.
-/
namespace Synopsis

/-- What one turn of a loop does. -/
inductive Turn (σ ρ : Type) where
  /-- It goes on to a further turn. -/
  | again (state : σ)
  /-- It leaves the loop. -/
  | leave (result : ρ)

/-- A loop, given by what a turn in each state does. -/
abbrev Loop (σ ρ : Type) := σ → Turn σ ρ

namespace Loop

variable {σ ρ : Type} {loop : Loop σ ρ}

/-- A loop that is entered in a state is left with a result, after finitely many turns. -/
inductive Ends (loop : Loop σ ρ) : σ → ρ → Prop where
  /-- The first turn leaves the loop. -/
  | leave {state : σ} {result : ρ} (turn : loop state = .leave result) : Ends loop state result
  /-- The loop ends after the first turn. -/
  | again {state next : σ} {result : ρ} (turn : loop state = .again next)
      (more : Ends loop next result) : Ends loop state result

/-- Every turn that does not leave the loop reads something of the text that is left. -/
def Progresses (loop : Loop σ ρ) (left : σ → List Char) : Prop :=
  ∀ state next, loop state = .again next → Text.Advances (left state) (left next)

/-- From a first state on, every turn of the loop reads something and the loop ends with a result. -/
def Reads (loop : Loop σ ρ) (left : σ → List Char) (start : σ) (result : ρ) : Prop :=
  loop.Progresses left ∧ loop.Ends start result

/-- A loop ends with one result. -/
theorem Ends.unique {state : σ} {result other : ρ} (first : loop.Ends state result)
    (second : loop.Ends state other) : result = other := by
  induction first with
  | leave turn =>
    cases second with
    | leave also => exact Turn.leave.inj (turn.symm.trans also)
    | again also more => exact absurd (turn.symm.trans also) (by simp)
  | again turn more ih =>
    cases second with
    | leave also => exact absurd (turn.symm.trans also) (by simp)
    | again also more => exact ih (Turn.again.inj (turn.symm.trans also) ▸ more)

/-- A loop ends if every turn reads something of the text that is left, as long as a condition
holds that the turns keep. -/
theorem exists_ends (holds : σ → Prop) (left : σ → List Char)
    (step : ∀ state next, holds state → loop state = .again next →
      holds next ∧ Text.Advances (left state) (left next))
    {state : σ} (start : holds state) : ∃ result, loop.Ends state result := by
  -- induction on the length of what is left, which every turn makes smaller
  induction length : (left state).length using Nat.strongRecOn generalizing state with
  | ind size ih =>
    cases turn : loop state with
    | leave result => exact ⟨result, .leave turn⟩
    | again next =>
      obtain ⟨kept, advances⟩ := step state next start turn
      obtain ⟨result, ends⟩ := ih _ (length ▸ advances.shorter) kept rfl
      exact ⟨result, .again turn ends⟩

/-- A loop never ends if a condition holds that only ever leads to a further turn. -/
theorem not_ends (holds : σ → Prop)
    (step : ∀ state, holds state → ∃ next, loop state = .again next ∧ holds next)
    {state : σ} (start : holds state) (result : ρ) : ¬ loop.Ends state result := by
  intro ends
  induction ends with
  | leave turn =>
    obtain ⟨next, again, -⟩ := step _ start
    exact absurd (turn.symm.trans again) (by simp)
  | again turn more ih =>
    obtain ⟨next, again, kept⟩ := step _ start
    exact ih (Turn.again.inj (turn.symm.trans again) ▸ kept)

end Loop

end Synopsis

import Synopsis.Proofs.Pattern.Flat

/-!
# Replacing leaves in turn

A replacement that keeps a state, a count for instance, may replace two occurrences of a leaf
differently. The leaves are met from left to right, and each passes its state on to the next one.
Replacements that keep a pattern flat do so in turn as well.
-/
namespace Synopsis.Pattern

variable {α β σ : Type}

mutual

/-- Every leaf replaced in turn, with the state that the last replacement leaves. -/
def bindInTurn (f : σ → α → Pattern β × σ) (state : σ) : Pattern α → Pattern β × σ
  | .seq parts => (bindAllInTurn f state parts).map .seq id
  | .alt branches => (bindAllInTurn f state branches).map .alt id
  | .opt body => (bindInTurn f state body).map .opt id
  | .rep body => (bindInTurn f state body).map .rep id
  | .leaf atom => f state atom

/-- Every leaf of every pattern of a list replaced in turn. -/
def bindAllInTurn (f : σ → α → Pattern β × σ) (state : σ) :
    List (Pattern α) → List (Pattern β) × σ
  | [] => ([], state)
  | first :: later =>
    (bindAllInTurn f (bindInTurn f state first).2 later).map ((bindInTurn f state first).1 :: ·) id

end

/-- Replacing in turn keeps the number of children. -/
theorem length_bindAllInTurn (f : σ → α → Pattern β × σ) (state : σ) (patterns : List (Pattern α)) :
    (bindAllInTurn f state patterns).1.length = patterns.length := by
  induction patterns generalizing state with
  | nil => rfl
  | cons first later ih => simp only [bindAllInTurn, Prod.map_fst, List.length_cons, ih]

mutual

/-- Replacing in turn without a use of the state replaces every leaf alike. -/
theorem bindInTurn_eq_bind (f : α → Pattern β) (state : σ) : ∀ pattern : Pattern α,
    bindInTurn (fun state atom => (f atom, state)) state pattern = (pattern.bind f, state)
  | .seq parts => by rw [bindInTurn, bindAllInTurn_eq_bindAll f state parts]; rfl
  | .alt branches => by rw [bindInTurn, bindAllInTurn_eq_bindAll f state branches]; rfl
  | .opt body => by rw [bindInTurn, bindInTurn_eq_bind f state body]; rfl
  | .rep body => by rw [bindInTurn, bindInTurn_eq_bind f state body]; rfl
  | .leaf _ => rfl

/-- Replacing in turn without a use of the state replaces the leaves of every member alike. -/
theorem bindAllInTurn_eq_bindAll (f : α → Pattern β) (state : σ) : ∀ patterns : List (Pattern α),
    bindAllInTurn (fun state atom => (f atom, state)) state patterns = (bindAll f patterns, state)
  | [] => rfl
  | first :: later => by
    rw [bindAllInTurn, bindInTurn_eq_bind f state first, bindAllInTurn_eq_bindAll f state later]
    rfl

end

mutual

/-- Replacing leaves in turn by flat patterns keeps a pattern flat. -/
theorem flat_bindInTurn {f : σ → α → Pattern β × σ}
    (replaced : ∀ state atom, (f state atom).1.Flat) (state : σ) :
    ∀ pattern : Pattern α, pattern.Flat → (bindInTurn f state pattern).1.Flat
  | .seq parts, flat => by
    obtain ⟨root, below⟩ := everywhere_seq.1 flat
    refine everywhere_seq.2 ⟨?_, flat_bindAllInTurn replaced state parts below⟩
    rw [isSole, length_bindAllInTurn]
    exact root
  | .alt branches, flat => by
    obtain ⟨root, below⟩ := everywhere_alt.1 flat
    refine everywhere_alt.2 ⟨?_, flat_bindAllInTurn replaced state branches below⟩
    rw [isSole, length_bindAllInTurn]
    exact root
  | .opt body, flat =>
    everywhere_opt.2 ⟨rfl, flat_bindInTurn replaced state body (everywhere_opt.1 flat).2⟩
  | .rep body, flat =>
    everywhere_rep.2 ⟨rfl, flat_bindInTurn replaced state body (everywhere_rep.1 flat).2⟩
  | .leaf atom, _ => replaced state atom

/-- Replacing leaves in turn by flat patterns keeps every member of a list flat. -/
theorem flat_bindAllInTurn {f : σ → α → Pattern β × σ}
    (replaced : ∀ state atom, (f state atom).1.Flat) (state : σ) :
    ∀ patterns : List (Pattern α), (∀ child ∈ patterns, child.Flat) →
      ∀ child ∈ (bindAllInTurn f state patterns).1, child.Flat
  | [], _ => fun _ mem => absurd mem List.not_mem_nil
  | first :: later, each => by
    have ⟨one, others⟩ := List.forall_mem_cons.1 each
    exact List.forall_mem_cons.2
      ⟨flat_bindInTurn replaced state first one, flat_bindAllInTurn replaced _ later others⟩

end

end Synopsis.Pattern

import Synopsis.Pattern.Repetition

/-!
# Replacing leaves

Replacing every leaf by a pattern puts the leaves of the replacements in the place of the leaf.
Where leaves are replaced in two ways, and two leaves occur equally often in the two replacements
of each leaf, they occur equally often in the two wholes, and neither may repeat where the other
may not. A choice of leaves, as a replacement, has exactly these leaves and lets none repeat.
-/
namespace Synopsis.Pattern

variable {α β : Type}

/-- Replacing leaves replaces them in the listing of the leaves. -/
theorem leaves_bind (f : α → Pattern β) (pattern : Pattern α) :
    (pattern.bind f).leaves = pattern.leaves.flatMap fun atom => (f atom).leaves := by
  have children : ∀ patterns : List (Pattern α),
      (∀ child ∈ patterns, (child.bind f).leaves =
        child.leaves.flatMap fun atom => (f atom).leaves) →
      leavesOf (bindAll f patterns) =
        (leavesOf patterns).flatMap fun atom => (f atom).leaves := by
    intro patterns each
    rw [bindAll_eq, leavesOf_eq, leavesOf_eq, List.flatMap_map, List.flatMap_assoc,
      List.flatMap_def, List.flatMap_def, List.map_congr_left each]
  induction pattern with
  | leaf atom => rw [bind, leaves, List.flatMap_singleton]
  | opt body ih => exact ih
  | rep body ih => exact ih
  | seq parts ih => exact children parts ih
  | alt branches ih => exact children branches ih

/-- Replacing leaves, and then the leaves of the replacements, replaces the leaves by what becomes
of their replacements. -/
theorem bind_bind {γ : Type} (f : α → Pattern β) (g : β → Pattern γ) (pattern : Pattern α) :
    (pattern.bind f).bind g = pattern.bind fun atom => (f atom).bind g := by
  have children : ∀ patterns : List (Pattern α),
      (∀ child ∈ patterns, (child.bind f).bind g = child.bind fun atom => (f atom).bind g) →
      bindAll g (bindAll f patterns) = bindAll (fun atom => (f atom).bind g) patterns := by
    intro patterns each
    rw [bindAll_eq, bindAll_eq, bindAll_eq, List.map_map]
    exact List.map_congr_left each
  induction pattern with
  | leaf atom => rfl
  | opt body ih => exact congrArg opt ih
  | rep body ih => exact congrArg rep ih
  | seq parts ih => exact congrArg seq (children parts ih)
  | alt branches ih => exact congrArg alt (children branches ih)

/-- Replacing every leaf by itself changes nothing. -/
theorem bind_leaf (pattern : Pattern α) : pattern.bind leaf = pattern := by
  have children : ∀ patterns : List (Pattern α),
      (∀ child ∈ patterns, child.bind leaf = child) → bindAll leaf patterns = patterns := by
    intro patterns each
    have same : patterns.map (bind leaf) = patterns.map id := List.map_congr_left each
    rw [bindAll_eq, same, List.map_id]
  induction pattern with
  | leaf atom => rfl
  | opt body ih => exact congrArg opt ih
  | rep body ih => exact congrArg rep ih
  | seq parts ih => exact congrArg seq (children parts ih)
  | alt branches ih => exact congrArg alt (children branches ih)

/-- Two ways of replacing leaves make the same of a pattern exactly if they do so of each of its
leaves. -/
theorem bind_eq_bind_iff {f g : α → Pattern β} {pattern : Pattern α} :
    pattern.bind f = pattern.bind g ↔ ∀ atom ∈ pattern.leaves, f atom = g atom := by
  have children : ∀ patterns : List (Pattern α),
      (∀ child ∈ patterns, (child.bind f = child.bind g ↔ ∀ atom ∈ child.leaves, f atom = g atom)) →
      (bindAll f patterns = bindAll g patterns ↔ ∀ atom ∈ leavesOf patterns, f atom = g atom) := by
    intro patterns each
    rw [bindAll_eq, bindAll_eq, List.map_inj_left, leavesOf_eq, List.forall_mem_flatMap]
    exact forall₂_congr each
  induction pattern with
  | leaf atom => rw [leaves, List.forall_mem_singleton, bind, bind]
  | opt body ih => exact (opt.injEq _ _).to_iff.trans ih
  | rep body ih => exact (rep.injEq _ _).to_iff.trans ih
  | seq parts ih => exact (seq.injEq _ _).to_iff.trans (children parts ih)
  | alt branches ih => exact (alt.injEq _ _).to_iff.trans (children branches ih)

/-- Replacing leaves is substitution on trees: the leaves of the replacements stand in the places of
the leaves, two replacements in turn are one by what the second makes of the first, leaves replaced
by themselves change nothing, and nothing but what becomes of the leaves decides what becomes of the
pattern. -/
theorem bind_substitutes {γ : Type} (pattern : Pattern α) (f : α → Pattern β)
    (g : β → Pattern γ) :
    (pattern.bind f).leaves = pattern.leaves.flatMap (fun atom => (f atom).leaves) ∧
      (pattern.bind f).bind g = pattern.bind (fun atom => (f atom).bind g) ∧
      pattern.bind leaf = pattern ∧
      ∀ other : α → Pattern β,
        pattern.bind f = pattern.bind other ↔ ∀ atom ∈ pattern.leaves, f atom = other atom :=
  ⟨leaves_bind f pattern, bind_bind f g pattern, bind_leaf pattern, fun _ => bind_eq_bind_iff⟩

section Count

variable {γ : Type} [DecidableEq β] [DecidableEq γ] {f : α → Pattern β} {g : α → Pattern γ}
  {first : β} {second : γ}

/-- Leaves that occur equally often in every two replacements do so in the whole. -/
theorem count_leaves_bind
    (same : ∀ atom, (f atom).leaves.count first = (g atom).leaves.count second)
    (pattern : Pattern α) :
    (pattern.bind f).leaves.count first = (pattern.bind g).leaves.count second := by
  rw [leaves_bind, leaves_bind, List.count_flatMap, List.count_flatMap]
  exact congrArg List.sum (List.map_congr_left fun atom _ => same atom)

/-- Leaves that occur equally often in every two replacements, and of which none may repeat there
where the other may not, may repeat in the whole alike. -/
theorem mayRepeat_bind
    (same : ∀ atom, (f atom).leaves.count first = (g atom).leaves.count second)
    (once : ∀ atom, (f atom).mayRepeat first = (g atom).mayRepeat second)
    (pattern : Pattern α) :
    (pattern.bind f).mayRepeat first = (pattern.bind g).mayRepeat second := by
  have children : ∀ patterns : List (Pattern α),
      (∀ child ∈ patterns, (child.bind f).mayRepeat first = (child.bind g).mayRepeat second) →
      anyMayRepeat first (bindAll f patterns) = anyMayRepeat second (bindAll g patterns) := by
    intro patterns each
    induction patterns with
    | nil => rfl
    | cons head later same =>
      rw [bindAll, anyMayRepeat, bindAll, anyMayRepeat, each head List.mem_cons_self,
        same fun child mem => each child (List.mem_cons_of_mem head mem)]
  induction pattern with
  | leaf atom => exact once atom
  | opt body ih => exact ih
  | rep body ih =>
    have counts := count_leaves_bind same body
    have member : first ∈ (body.bind f).leaves ↔ second ∈ (body.bind g).leaves := by
      rw [← List.count_pos_iff, ← List.count_pos_iff, counts]
    simp only [bind, mayRepeat, member]
  | seq parts ih =>
    have counts : (leavesOf (bindAll f parts)).count first =
        (leavesOf (bindAll g parts)).count second := count_leaves_bind same (.seq parts)
    rw [bind, mayRepeat, bind, mayRepeat, children parts ih, counts]
  | alt branches ih => exact children branches ih

end Count

/-- A choice of leaves has these leaves. -/
theorem leaves_choice_leaf (atoms : List α) : (choice (atoms.map leaf)).leaves = atoms := by
  rw [choice, leaves_collapse, leaves, leavesOf_eq, List.flatMap_map]
  exact List.flatMap_singleton' atoms

/-- A leaf may repeat in a choice if it may in one of the branches. -/
theorem mayRepeat_choice [DecidableEq α] (target : α) (branches : List (Pattern α)) :
    (choice branches).mayRepeat target = branches.any (mayRepeat target) := by
  match branches with
  | [] => rfl
  | [branch] => rw [List.any_cons, List.any_nil, Bool.or_false]; rfl
  | first :: second :: later =>
    rw [← anyMayRepeat_eq]
    rfl

/-- No leaf may repeat in a choice of leaves. -/
theorem mayRepeat_choice_leaf [DecidableEq α] (target : α) (atoms : List α) :
    (choice (atoms.map leaf)).mayRepeat target = false := by
  rw [mayRepeat_choice, List.any_map]
  exact List.any_eq_false.2 fun atom _ => Bool.false_ne_true

/-- Replacing the leaves of a choice of leaves gives the choice of the replacements. -/
theorem bind_choice_leaf (f : α → Pattern β) (atoms : List α) :
    (choice (atoms.map leaf)).bind f = choice (atoms.map f) := by
  match atoms with
  | [] => rfl
  | [atom] => rfl
  | first :: second :: later =>
    have replaced : bindAll f ((first :: second :: later).map leaf) =
        (first :: second :: later).map f := by
      rw [bindAll_eq, List.map_map]
      rfl
    exact congrArg alt replaced

end Synopsis.Pattern

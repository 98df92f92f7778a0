import Mathlib.Algebra.BigOperators.Ring.List
import Mathlib.Algebra.Ring.Nat
import Synopsis.Proofs.Pattern.Node
import Synopsis.Proofs.Pattern.Replacement

/-!
# Leaves in sequences

The judgment whether a leaf may repeat counts the leaves in a sequence, whatever choices they stand
in. So a leaf that stands anywhere in a sequence may repeat as soon as each of its occurrences is
multiplied. Elsewhere more occurrences of a leaf do not let it repeat.
-/
namespace Synopsis.Pattern

variable {α β : Type}

/-- A leaf stands in a sequence of the pattern, at any depth. -/
def InSequence (target : α) (pattern : Pattern α) : Prop :=
  ∃ node ∈ pattern.nodes, node.isSequence = true ∧ target ∈ node.leaves

instance [DecidableEq α] (target : α) (pattern : Pattern α) :
    Decidable (pattern.InSequence target) :=
  inferInstanceAs
    (Decidable (∃ node ∈ pattern.nodes, node.isSequence = true ∧ target ∈ node.leaves))

/-- What stands in a sequence of a pattern is a leaf of the pattern. -/
theorem InSequence.mem_leaves {target : α} {pattern : Pattern α}
    (inside : pattern.InSequence target) : target ∈ pattern.leaves := by
  obtain ⟨node, below, -, leaf⟩ := inside
  exact everywhere_leaves pattern node below target leaf

/-- All leaves of a sequence stand in it. -/
theorem inSequence_seq {target : α} {parts : List (Pattern α)} :
    (seq parts).InSequence target ↔ target ∈ leavesOf parts :=
  ⟨InSequence.mem_leaves, fun leaf => ⟨.seq parts, List.mem_cons_self, rfl, leaf⟩⟩

/-- What stands in a sequence of a choice stands in one of a branch. -/
theorem inSequence_alt {target : α} {branches : List (Pattern α)} :
    (alt branches).InSequence target ↔ ∃ branch ∈ branches, branch.InSequence target := by
  constructor
  · rintro ⟨node, below, root, leaf⟩
    rcases List.mem_cons.1 below with rfl | inside
    · contradiction
    · rw [nodesOf_eq] at inside
      obtain ⟨branch, mem, within⟩ := List.mem_flatMap.1 inside
      exact ⟨branch, mem, node, within, root, leaf⟩
  · rintro ⟨branch, mem, node, within, root, leaf⟩
    have inside : node ∈ nodesOf branches := by
      rw [nodesOf_eq]
      exact List.mem_flatMap.2 ⟨branch, mem, within⟩
    exact ⟨node, List.mem_cons_of_mem _ inside, root, leaf⟩

/-- What stands in a sequence of an optional pattern stands in one of the body. -/
theorem inSequence_opt {target : α} {body : Pattern α} :
    (opt body).InSequence target ↔ body.InSequence target := by
  constructor
  · rintro ⟨node, below, root, leaf⟩
    rcases List.mem_cons.1 below with rfl | inside
    · contradiction
    · exact ⟨node, inside, root, leaf⟩
  · rintro ⟨node, inside, root, leaf⟩
    exact ⟨node, List.mem_cons_of_mem _ inside, root, leaf⟩

/-- A leaf stands in no sequence of its own. -/
theorem not_inSequence_leaf {target atom : α} : ¬ (leaf atom).InSequence target := by
  rintro ⟨node, below, root, -⟩
  rw [List.mem_singleton.1 below] at root
  contradiction

/-- What stands in a sequence of a choice that is built stands in one of a branch. -/
theorem inSequence_choice {target : α} {branches : List (Pattern α)} :
    (choice branches).InSequence target ↔ ∃ branch ∈ branches, branch.InSequence target := by
  match branches with
  | [] => exact inSequence_alt
  | [branch] => simp only [choice, collapse, List.mem_singleton, exists_eq_left]
  | first :: second :: later => exact inSequence_alt

/-- No leaf stands in a sequence of a choice of leaves. -/
theorem not_inSequence_choice_leaf (target : α) (atoms : List α) :
    ¬ (choice (atoms.map leaf)).InSequence target := by
  rw [inSequence_choice]
  rintro ⟨branch, mem, inside⟩
  obtain ⟨atom, -, rfl⟩ := List.mem_map.1 mem
  exact not_inSequence_leaf inside

/-- A number multiplied is more than one if it was, or if it becomes so from one on. -/
theorem one_lt_mul_iff {times number : Nat} (some : 0 < times) :
    1 < times * number ↔ 1 < number ∨ 1 < times ∧ 0 < number := by
  constructor
  · intro several
    by_cases more : 1 < number
    · exact .inl more
    · obtain rfl | rfl : number = 0 ∨ number = 1 := by omega
      · exact absurd several (by omega)
      · exact .inr ⟨by omega, Nat.one_pos⟩
  · rintro (more | ⟨several, present⟩)
    · exact Nat.lt_of_lt_of_le more (Nat.le_mul_of_pos_left _ some)
    · exact Nat.lt_of_lt_of_le several (Nat.le_mul_of_pos_right _ present)

section Multiplied

variable [DecidableEq β] {f g : α → Pattern β} {target : β} {times : Nat} (some : 0 < times)
  (counts : ∀ atom, (g atom).leaves.count target = times * (f atom).leaves.count target)

include counts

/-- A leaf that occurs some times as often in the replacements does so in the whole. -/
theorem count_leaves_bind_mul (pattern : Pattern α) :
    (pattern.bind g).leaves.count target = times * (pattern.bind f).leaves.count target := by
  rw [leaves_bind, leaves_bind, List.count_flatMap, List.count_flatMap, ← List.sum_map_mul_left]
  exact congrArg List.sum (List.map_congr_left fun atom _ => counts atom)

include some

/-- A leaf that occurs some times as often is one all the same. -/
theorem mem_leaves_bind_mul (pattern : Pattern α) :
    target ∈ (pattern.bind g).leaves ↔ target ∈ (pattern.bind f).leaves := by
  rw [← List.count_pos_iff, ← List.count_pos_iff, count_leaves_bind_mul counts,
    Nat.mul_pos_iff_of_pos_left some]

/-- If a leaf occurs some times as often in the replacements, but may not repeat in one of them, it
may repeat in the whole where it did before, and besides wherever it stands in a sequence and occurs
several times as often. -/
theorem mayRepeat_bind_mul (once : ∀ atom, (f atom).mayRepeat target = false)
    (still : ∀ atom, (g atom).mayRepeat target = false)
    (apart : ∀ atom, ¬ (f atom).InSequence target) (pattern : Pattern α) :
    (pattern.bind g).mayRepeat target = true ↔
      (pattern.bind f).mayRepeat target = true ∨
        1 < times ∧ (pattern.bind f).InSequence target := by
  -- what holds of each child holds of a list of them
  have children : ∀ patterns : List (Pattern α),
      (∀ child ∈ patterns, (child.bind g).mayRepeat target = true ↔
        (child.bind f).mayRepeat target = true ∨
          1 < times ∧ (child.bind f).InSequence target) →
      (anyMayRepeat target (bindAll g patterns) = true ↔
        anyMayRepeat target (bindAll f patterns) = true ∨
          1 < times ∧ ∃ child ∈ bindAll f patterns, child.InSequence target) := by
    intro patterns each
    simp only [anyMayRepeat_eq, bindAll_eq, List.any_eq_true, List.mem_map,
      exists_exists_and_eq_and]
    constructor
    · rintro ⟨child, mem, again⟩
      rcases (each child mem).1 again with before | ⟨several, inside⟩
      · exact .inl ⟨child, mem, before⟩
      · exact .inr ⟨several, child, mem, inside⟩
    · rintro (⟨child, mem, before⟩ | ⟨several, child, mem, inside⟩)
      · exact ⟨child, mem, (each child mem).2 (.inl before)⟩
      · exact ⟨child, mem, (each child mem).2 (.inr ⟨several, inside⟩)⟩
  induction pattern with
  | leaf atom =>
    rw [bind, bind, once, still]
    exact ⟨.inl, fun either => either.elim id fun within => absurd within.2 (apart atom)⟩
  | opt body ih =>
    rw [bind, bind, inSequence_opt]
    exact ih
  | rep body ih =>
    have member := mem_leaves_bind_mul some counts body
    have inside : 1 < times ∧ (rep (body.bind f)).InSequence target →
        target ∈ (body.bind f).leaves := fun within => within.2.mem_leaves
    simp only [bind, mayRepeat, decide_eq_true_eq, member]
    exact ⟨.inl, fun either => either.elim id inside⟩
  | alt branches ih =>
    rw [bind, bind, inSequence_alt]
    exact children branches ih
  | seq parts ih =>
    have count : (leavesOf (bindAll g parts)).count target =
        times * (leavesOf (bindAll f parts)).count target :=
      count_leaves_bind_mul counts (.seq parts)
    have within : (∃ child ∈ bindAll f parts, child.InSequence target) →
        target ∈ leavesOf (bindAll f parts) := by
      rintro ⟨child, mem, inside⟩
      rw [leavesOf_eq]
      exact List.mem_flatMap.2 ⟨child, mem, inside.mem_leaves⟩
    rw [bind, bind, inSequence_seq, mayRepeat, mayRepeat, Bool.or_eq_true, Bool.or_eq_true,
      decide_eq_true_eq, decide_eq_true_eq, children parts ih, count, one_lt_mul_iff some,
      List.count_pos_iff]
    constructor
    · rintro ((before | ⟨several, inside⟩) | (more | alone))
      · exact .inl (.inl before)
      · exact .inr ⟨several, within inside⟩
      · exact .inl (.inr more)
      · exact .inr alone
    · rintro ((before | more) | alone)
      · exact .inl (.inl before)
      · exact .inr (.inl more)
      · exact .inr (.inr alone)

end Multiplied

end Synopsis.Pattern

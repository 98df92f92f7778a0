import Synopsis.Pattern.Repetition
import Synopsis.Proofs.Pattern.Place

/-!
# Leaves that recur

Two shapes in the tree let a leaf repeat, wherever they are: a repeated body that the leaf stands
in, at any depth, and a sequence with two places where the leaf stands, through whatever nodes they
are reached. The judgment on repetition looks at less in each node, but it finds these shapes and no
others. So a leaf that may repeat may still do so when more is put around the pattern.
-/
namespace Synopsis.Pattern

variable {α : Type}

/-- A leaf stands somewhere in a repeated body. -/
def InRepeated (target : α) (pattern : Pattern α) : Prop :=
  ∃ above body place, pattern.node? above = some (.rep body) ∧
    pattern.node? (above ++ place) = some (.leaf target)

/-- A leaf stands at two different places in one sequence. -/
def TwiceInSequence (target : α) (pattern : Pattern α) : Prop :=
  ∃ above parts one other, pattern.node? above = some (.seq parts) ∧ one ≠ other ∧
    pattern.node? (above ++ one) = some (.leaf target) ∧
    pattern.node? (above ++ other) = some (.leaf target)

/-- A leaf that stands in a repeated body, or twice in a sequence. -/
def Recurs (target : α) (pattern : Pattern α) : Prop :=
  pattern.InRepeated target ∨ pattern.TwiceInSequence target

/-- A leaf that recurs in a node recurs in the pattern. -/
theorem Recurs.of_node? {target : α} {pattern node : Pattern α} {place : List Nat}
    (found : pattern.node? place = some node) (recurs : node.Recurs target) :
    pattern.Recurs target := by
  have below := node?_append found
  rcases recurs with ⟨above, body, way, repeated, leaf⟩ |
    ⟨above, parts, one, other, sequence, different, first, second⟩
  · refine .inl ⟨place ++ above, body, way, ?_, ?_⟩
    · rw [below, repeated]
    · rw [List.append_assoc, below, leaf]
  · refine .inr ⟨place ++ above, parts, one, other, ?_, different, ?_, ?_⟩
    · rw [below, sequence]
    · rw [List.append_assoc, below, first]
    · rw [List.append_assoc, below, second]

/-- A leaf that recurs is a leaf. -/
theorem Recurs.mem_leaves {target : α} {pattern : Pattern α} (recurs : pattern.Recurs target) :
    target ∈ pattern.leaves := by
  rcases recurs with ⟨above, body, way, -, leaf⟩ | ⟨above, parts, one, other, -, -, leaf, -⟩
  · exact mem_leaves_iff_place.2 ⟨above ++ way, leaf⟩
  · exact mem_leaves_iff_place.2 ⟨above ++ one, leaf⟩

section Judgment

variable [DecidableEq α] {target : α}

/-- A leaf that may repeat recurs. -/
theorem recurs_of_mayRepeat {pattern : Pattern α} (again : pattern.mayRepeat target = true) :
    pattern.Recurs target := by
  -- what recurs in a child recurs in the pattern, below the number of the child
  have lift : ∀ {pattern child : Pattern α}, child ∈ pattern.children → child.Recurs target →
      pattern.Recurs target := by
    intro pattern child mem recurs
    obtain ⟨step, found⟩ := exists_place_of_mem_children mem
    exact recurs.of_node? found
  have inList : ∀ {patterns : List (Pattern α)},
      (∀ child ∈ patterns, child.mayRepeat target = true → child.Recurs target) →
      anyMayRepeat target patterns = true → ∃ child ∈ patterns, child.Recurs target := by
    intro patterns each some
    rw [anyMayRepeat_eq] at some
    obtain ⟨child, mem, inChild⟩ := List.any_eq_true.1 some
    exact ⟨child, mem, each child mem inChild⟩
  induction pattern with
  | leaf atom => contradiction
  | opt body ih => exact lift List.mem_cons_self (ih again)
  | rep body =>
    have inside : target ∈ (rep body).leaves := of_decide_eq_true again
    obtain ⟨place, leaf⟩ := mem_leaves_iff_place.1 inside
    exact .inl ⟨[], body, place, rfl, leaf⟩
  | alt branches ih =>
    obtain ⟨branch, mem, recurs⟩ := inList ih again
    exact lift mem recurs
  | seq parts ih =>
    rw [Pattern.mayRepeat, Bool.or_eq_true, decide_eq_true_eq] at again
    rcases again with inPart | several
    · obtain ⟨part, mem, recurs⟩ := inList ih inPart
      exact lift mem recurs
    · have two : 1 < (seq parts).leaves.count target := several
      obtain ⟨one, other, different, first, second⟩ := one_lt_count_leaves_iff.1 two
      exact .inr ⟨[], parts, one, other, rfl, different, first, second⟩

/-- A leaf that may repeat is a leaf. -/
theorem mem_leaves_of_mayRepeat {pattern : Pattern α} (again : pattern.mayRepeat target = true) :
    target ∈ pattern.leaves := (recurs_of_mayRepeat again).mem_leaves

/-- A leaf that may repeat in a child may repeat in the pattern. -/
theorem mayRepeat_of_mem_children {pattern child : Pattern α} (mem : child ∈ pattern.children)
    (again : child.mayRepeat target = true) : pattern.mayRepeat target = true := by
  have inList : ∀ {patterns : List (Pattern α)}, child ∈ patterns →
      anyMayRepeat target patterns = true := by
    intro patterns inside
    rw [anyMayRepeat_eq]
    exact List.any_eq_true.2 ⟨child, inside, again⟩
  cases pattern with
  | leaf atom => exact absurd mem List.not_mem_nil
  | opt body =>
    obtain rfl := List.mem_singleton.1 mem
    exact again
  | rep body =>
    obtain rfl := List.mem_singleton.1 mem
    exact decide_eq_true (mem_leaves_of_mayRepeat again)
  | seq parts =>
    have inPart : anyMayRepeat target parts = true := inList mem
    rw [Pattern.mayRepeat, inPart, Bool.true_or]
  | alt branches => exact inList mem

/-- A leaf that may repeat in a node may repeat in the pattern. -/
theorem mayRepeat_of_node? {pattern node : Pattern α} {place : List Nat}
    (found : pattern.node? place = some node) (again : node.mayRepeat target = true) :
    pattern.mayRepeat target = true := by
  induction place generalizing pattern with
  | nil =>
    obtain rfl := Option.some.inj found
    exact again
  | cons step place ih =>
    obtain ⟨child, inside, below⟩ := node?_cons_eq_some_iff.1 found
    exact mayRepeat_of_mem_children (List.mem_of_getElem? inside) (ih below)

/-- A leaf that recurs may repeat. -/
theorem Recurs.mayRepeat {pattern : Pattern α} (recurs : pattern.Recurs target) :
    pattern.mayRepeat target = true := by
  rcases recurs with ⟨above, body, way, repeated, leaf⟩ |
    ⟨above, parts, one, other, sequence, different, first, second⟩
  · refine mayRepeat_of_node? repeated ?_
    rw [node?_append repeated] at leaf
    have inside : target ∈ (rep body).leaves := mem_leaves_iff_place.2 ⟨way, leaf⟩
    exact decide_eq_true inside
  · refine mayRepeat_of_node? sequence ?_
    rw [node?_append sequence] at first second
    have several : 1 < (seq parts).leaves.count target :=
      one_lt_count_leaves_iff.2 ⟨one, other, different, first, second⟩
    rw [Pattern.mayRepeat, Bool.or_eq_true]
    exact .inr (decide_eq_true several)

end Judgment

/-- A pattern with one hole in it. -/
inductive Context (α : Type) where
  /-- Nothing but the hole. -/
  | hole
  /-- A sequence with the hole in one of its parts. -/
  | seq (before : List (Pattern α)) (part : Context α) (after : List (Pattern α))
  /-- A choice with the hole in one of its branches. -/
  | alt (before : List (Pattern α)) (branch : Context α) (after : List (Pattern α))
  /-- An optional body with the hole in it. -/
  | opt (body : Context α)
  /-- A repeated body with the hole in it. -/
  | rep (body : Context α)

namespace Context

/-- The pattern with another one put into the hole. -/
def fill (pattern : Pattern α) : Context α → Pattern α
  | .hole => pattern
  | .seq before part after => .seq (before ++ part.fill pattern :: after)
  | .alt before branch after => .alt (before ++ branch.fill pattern :: after)
  | .opt body => .opt (body.fill pattern)
  | .rep body => .rep (body.fill pattern)

/-- The place of the hole. -/
def place : Context α → List Nat
  | .hole => []
  | .seq before part _ => before.length :: part.place
  | .alt before branch _ => before.length :: branch.place
  | .opt body => 0 :: body.place
  | .rep body => 0 :: body.place

/-- What is put into the hole is found at its place. -/
theorem node?_fill (context : Context α) (pattern : Pattern α) :
    (context.fill pattern).node? context.place = some pattern := by
  have child : ∀ (before : List (Pattern α)) (node : Pattern α) (after : List (Pattern α)),
      (before ++ node :: after)[before.length]? = some node := by
    intro before node after
    rw [List.getElem?_append_right (Nat.le_refl _), Nat.sub_self, List.getElem?_cons_zero]
  induction context with
  | hole => rfl
  | seq before part after ih => exact node?_cons_eq_some_iff.2 ⟨_, child before _ after, ih⟩
  | alt before branch after ih => exact node?_cons_eq_some_iff.2 ⟨_, child before _ after, ih⟩
  | opt body ih => exact node?_cons_eq_some_iff.2 ⟨_, rfl, ih⟩
  | rep body ih => exact node?_cons_eq_some_iff.2 ⟨_, rfl, ih⟩

end Context

/-- A leaf may repeat exactly if it stands somewhere in a repeated body or at two places in one
sequence. So whatever is put around a pattern, a leaf that may repeat in it may still do so. -/
theorem mayRepeat_iff_recurs [DecidableEq α] (pattern : Pattern α) (target : α) :
    (pattern.mayRepeat target = true ↔
      pattern.InRepeated target ∨ pattern.TwiceInSequence target) ∧
    ∀ context : Context α, pattern.mayRepeat target = true →
      (context.fill pattern).mayRepeat target = true := by
  refine ⟨⟨recurs_of_mayRepeat, Recurs.mayRepeat⟩, fun context again => ?_⟩
  exact mayRepeat_of_node? (context.node?_fill pattern) again

/-- A leaf that stands once in each of two parts, in one of them below a choice. -/
def splitPattern : Pattern Char := .seq [.alt [.leaf 'a', .leaf 'b'], .opt (.leaf 'a')]

/-- A leaf that recurs through a choice and an optional body may repeat, and still does so as a branch
of an optional choice; the other leaf may not. -/
theorem mayRepeat_iff_recurs_split :
    splitPattern.TwiceInSequence 'a' ∧ splitPattern.mayRepeat 'a' = true ∧
      ¬ splitPattern.Recurs 'b' ∧
      (Pattern.opt (.alt [.leaf 'c', splitPattern])).mayRepeat 'a' = true := by
  obtain ⟨first, inContext⟩ := mayRepeat_iff_recurs splitPattern 'a'
  obtain ⟨second, -⟩ := mayRepeat_iff_recurs splitPattern 'b'
  have twice : splitPattern.TwiceInSequence 'a' :=
    ⟨[], _, [0, 0], [1, 0], rfl, by decide, rfl, rfl⟩
  have again : splitPattern.mayRepeat 'a' = true := first.2 (.inr twice)
  have once : splitPattern.mayRepeat 'b' = false := by decide
  refine ⟨twice, again, fun recurs => ?_, inContext (.opt (.alt [.leaf 'c'] .hole [])) again⟩
  rw [second.2 recurs] at once
  contradiction

end Synopsis.Pattern

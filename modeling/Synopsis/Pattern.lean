/-!
# Patterns

A pattern describes the ways a program may be invoked: parts in order, a choice of branches, an
optional or a repeated body, over leaves of any type. Nothing in the type forbids a sequence or a
choice with a single child; the constructors `sequence` and `choice` never make one.
-/
namespace Synopsis

/-- A tree of sequences, choices, optional and repeated bodies over leaves. -/
inductive Pattern (α : Type) where
  /-- Every part, in order. -/
  | seq (parts : List (Pattern α))
  /-- One of the branches. -/
  | alt (branches : List (Pattern α))
  /-- The body or nothing. -/
  | opt (body : Pattern α)
  /-- The body once or more often. -/
  | rep (body : Pattern α)
  /-- One leaf. -/
  | leaf (atom : α)
deriving Repr

namespace Pattern

variable {α β : Type}

/-- Induction over patterns, with the hypothesis for every child of a list of children. -/
@[elab_as_elim, induction_eliminator]
theorem induct {motive : Pattern α → Prop}
    (seq : ∀ parts, (∀ part ∈ parts, motive part) → motive (.seq parts))
    (alt : ∀ branches, (∀ branch ∈ branches, motive branch) → motive (.alt branches))
    (opt : ∀ body, motive body → motive (.opt body))
    (rep : ∀ body, motive body → motive (.rep body))
    (leaf : ∀ atom, motive (.leaf atom)) (pattern : Pattern α) : motive pattern :=
  @Pattern.rec α motive (fun children => ∀ child ∈ children, motive child)
    seq alt opt rep leaf (fun _ mem => absurd mem List.not_mem_nil)
    (fun _ _ first later child mem => by
      rcases List.mem_cons.1 mem with same | tail
      · exact same ▸ first
      · exact later child tail)
    pattern

mutual

/-- Whether two patterns are the same tree. -/
def same [DecidableEq α] : Pattern α → Pattern α → Bool
  | .seq first, .seq second => sameAll first second
  | .alt first, .alt second => sameAll first second
  | .opt first, .opt second => same first second
  | .rep first, .rep second => same first second
  | .leaf first, .leaf second => first = second
  | _, _ => false

/-- Whether two lists of patterns are the same. -/
def sameAll [DecidableEq α] : List (Pattern α) → List (Pattern α) → Bool
  | [], [] => true
  | first :: firsts, second :: seconds => same first second && sameAll firsts seconds
  | _, _ => false

end

mutual

/-- Comparing patterns node by node decides whether they are equal. -/
theorem same_iff [DecidableEq α] : ∀ first second : Pattern α,
    same first second = true ↔ first = second
  | .seq first, other => by cases other <;> simp [same, sameAll_iff first]
  | .alt first, other => by cases other <;> simp [same, sameAll_iff first]
  | .opt first, other => by cases other <;> simp [same, same_iff first]
  | .rep first, other => by cases other <;> simp [same, same_iff first]
  | .leaf first, other => by cases other <;> simp [same]

/-- Comparing lists of patterns child by child decides whether they are equal. -/
theorem sameAll_iff [DecidableEq α] : ∀ first second : List (Pattern α),
    sameAll first second = true ↔ first = second
  | [], other => by cases other <;> simp [sameAll]
  | first :: firsts, other => by
    cases other <;> simp [sameAll, same_iff first, sameAll_iff firsts]

end

instance [DecidableEq α] : DecidableEq (Pattern α) := fun first second =>
  decidable_of_iff _ (same_iff first second)

/-- A sequence or choice with a single child is replaced by that child; every other pattern
stays. Only the root is looked at. -/
def collapse : Pattern α → Pattern α
  | .seq [part] => part
  | .alt [branch] => branch
  | other => other

/-- The parts in order; a single part stands for itself. -/
def sequence (parts : List (Pattern α)) : Pattern α := (seq parts).collapse

/-- A choice of the branches; a single branch stands for itself. -/
def choice (branches : List (Pattern α)) : Pattern α := (alt branches).collapse

mutual

/-- The leaves from left to right, as often as they occur. -/
def leaves : Pattern α → List α
  | .seq parts => leavesOf parts
  | .alt branches => leavesOf branches
  | .opt body => leaves body
  | .rep body => leaves body
  | .leaf atom => [atom]

/-- The leaves of all patterns of a list. -/
def leavesOf : List (Pattern α) → List α
  | [] => []
  | first :: later => leaves first ++ leavesOf later

end

mutual

/-- Every leaf replaced by a pattern, all other nodes kept as they are. -/
def bind (f : α → Pattern β) : Pattern α → Pattern β
  | .seq parts => .seq (bindAll f parts)
  | .alt branches => .alt (bindAll f branches)
  | .opt body => .opt (bind f body)
  | .rep body => .rep (bind f body)
  | .leaf atom => f atom

/-- Every leaf of every pattern of a list replaced. -/
def bindAll (f : α → Pattern β) : List (Pattern α) → List (Pattern β)
  | [] => []
  | first :: later => bind f first :: bindAll f later

end

/-- The leaves of a list of patterns are the leaves of its members in order. -/
theorem leavesOf_eq (patterns : List (Pattern α)) : leavesOf patterns = patterns.flatMap leaves := by
  induction patterns with
  | nil => rfl
  | cons first later ih => rw [leavesOf, ih, List.flatMap_cons]

/-- Replacing the leaves of a list of patterns replaces those of each member. -/
theorem bindAll_eq (f : α → Pattern β) (patterns : List (Pattern α)) :
    bindAll f patterns = patterns.map (bind f) := by
  induction patterns with
  | nil => rfl
  | cons first later ih => rw [bindAll, ih, List.map_cons]

/-- Collapsing the root keeps the leaves. -/
theorem leaves_collapse (pattern : Pattern α) : pattern.collapse.leaves = pattern.leaves := by
  unfold collapse
  split
  · rw [leaves, leavesOf, leavesOf, List.append_nil]
  · rw [leaves, leavesOf, leavesOf, List.append_nil]
  · rfl

end Pattern

end Synopsis

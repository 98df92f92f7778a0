import Synopsis.Pattern

/-!
# Nodes of a pattern

The nodes of a pattern are the pattern itself and the nodes of its children, each before those
below it and from left to right. What a pattern must not contain is a property of its nodes, and
each such property is settled at the root and then at the children.
-/
namespace Synopsis.Pattern

variable {α : Type}

mutual

/-- The nodes of a pattern, itself first. -/
def nodes : Pattern α → List (Pattern α)
  | .seq parts => .seq parts :: nodesOf parts
  | .alt branches => .alt branches :: nodesOf branches
  | .opt body => .opt body :: nodes body
  | .rep body => .rep body :: nodes body
  | .leaf atom => [.leaf atom]

/-- The nodes of all patterns of a list. -/
def nodesOf : List (Pattern α) → List (Pattern α)
  | [] => []
  | first :: later => nodes first ++ nodesOf later

end

/-- The nodes of a list of patterns are the nodes of its members in order. -/
theorem nodesOf_eq (patterns : List (Pattern α)) : nodesOf patterns = patterns.flatMap nodes := by
  induction patterns with
  | nil => rfl
  | cons first later ih => rw [nodesOf, ih, List.flatMap_cons]

/-- The atom of a leaf. -/
def leaf? : Pattern α → Option α
  | .leaf atom => some atom
  | _ => none

/-- The leaves are the nodes that are leaves, in the order of the nodes. -/
theorem filterMap_leaf?_nodes (pattern : Pattern α) :
    pattern.nodes.filterMap leaf? = pattern.leaves := by
  have children : ∀ patterns : List (Pattern α),
      (∀ child ∈ patterns, child.nodes.filterMap leaf? = child.leaves) →
      (nodesOf patterns).filterMap leaf? = leavesOf patterns := by
    intro patterns each
    rw [nodesOf_eq, leavesOf_eq, List.filterMap_flatMap, List.flatMap_def, List.flatMap_def,
      List.map_congr_left each]
  induction pattern with
  | leaf atom => rfl
  | opt body ih => exact ih
  | rep body ih => exact ih
  | seq parts ih => exact children parts ih
  | alt branches ih => exact children branches ih

/-- Whether the root is a sequence. -/
def isSequence : Pattern α → Bool
  | .seq _ => true
  | _ => false

/-- A property holds at every node of a pattern. -/
def Everywhere (holds : Pattern α → Prop) (pattern : Pattern α) : Prop :=
  ∀ node ∈ pattern.nodes, holds node

instance (holds : Pattern α → Prop) [DecidablePred holds] (pattern : Pattern α) :
    Decidable (pattern.Everywhere holds) :=
  inferInstanceAs (Decidable (∀ node ∈ pattern.nodes, holds node))

section Everywhere

variable {holds : Pattern α → Prop}

/-- Members of a list of patterns give all of its nodes. -/
theorem forall_nodesOf {patterns : List (Pattern α)} :
    (∀ node ∈ nodesOf patterns, holds node) ↔ ∀ child ∈ patterns, child.Everywhere holds := by
  simp only [nodesOf_eq, List.mem_flatMap, Everywhere]
  constructor
  · intro every child mem node below
    exact every node ⟨child, mem, below⟩
  · rintro every node ⟨child, mem, below⟩
    exact every child mem node below

/-- A sequence is settled at its root and its parts. -/
theorem everywhere_seq {parts : List (Pattern α)} :
    (seq parts).Everywhere holds ↔
      holds (.seq parts) ∧ ∀ part ∈ parts, part.Everywhere holds := by
  rw [Everywhere, nodes, List.forall_mem_cons, forall_nodesOf]

/-- A choice is settled at its root and its branches. -/
theorem everywhere_alt {branches : List (Pattern α)} :
    (alt branches).Everywhere holds ↔
      holds (.alt branches) ∧ ∀ branch ∈ branches, branch.Everywhere holds := by
  rw [Everywhere, nodes, List.forall_mem_cons, forall_nodesOf]

/-- An optional pattern is settled at its root and its body. -/
theorem everywhere_opt {body : Pattern α} :
    (opt body).Everywhere holds ↔ holds (.opt body) ∧ body.Everywhere holds := by
  rw [Everywhere, nodes, List.forall_mem_cons, Everywhere]

/-- A repeated pattern is settled at its root and its body. -/
theorem everywhere_rep {body : Pattern α} :
    (rep body).Everywhere holds ↔ holds (.rep body) ∧ body.Everywhere holds := by
  rw [Everywhere, nodes, List.forall_mem_cons, Everywhere]

/-- A leaf is its only node. -/
theorem everywhere_leaf {atom : α} : (leaf atom).Everywhere holds ↔ holds (.leaf atom) := by
  rw [Everywhere, nodes, List.forall_mem_singleton]

/-- What holds everywhere in a pattern holds at its leaves. -/
theorem Everywhere.leaves {pattern : Pattern α} (every : pattern.Everywhere holds) :
    ∀ atom ∈ pattern.leaves, holds (.leaf atom) := by
  have children : ∀ patterns : List (Pattern α),
      (∀ child ∈ patterns, child.Everywhere holds → ∀ atom ∈ child.leaves, holds (.leaf atom)) →
      (∀ child ∈ patterns, child.Everywhere holds) →
      ∀ atom ∈ leavesOf patterns, holds (.leaf atom) := by
    intro patterns each below atom leaf
    rw [leavesOf_eq] at leaf
    obtain ⟨child, mem, inside⟩ := List.mem_flatMap.1 leaf
    exact each child mem (below child mem) atom inside
  induction pattern with
  | leaf atom => exact List.forall_mem_singleton.2 (everywhere_leaf.1 every)
  | opt body ih => exact ih (everywhere_opt.1 every).2
  | rep body ih => exact ih (everywhere_rep.1 every).2
  | seq parts ih => exact children parts ih (everywhere_seq.1 every).2
  | alt branches ih => exact children branches ih (everywhere_alt.1 every).2

end Everywhere

/-- The leaves of every node are leaves of the pattern. -/
theorem everywhere_leaves (pattern : Pattern α) :
    pattern.Everywhere fun node => ∀ atom ∈ node.leaves, atom ∈ pattern.leaves := by
  have children : ∀ patterns : List (Pattern α),
      (∀ child ∈ patterns,
        child.Everywhere fun node => ∀ atom ∈ node.leaves, atom ∈ child.leaves) →
      ∀ child ∈ patterns,
        child.Everywhere fun node => ∀ atom ∈ node.leaves, atom ∈ leavesOf patterns := by
    intro patterns each child mem node below atom leaf
    rw [leavesOf_eq]
    exact List.mem_flatMap.2 ⟨child, mem, each child mem node below atom leaf⟩
  induction pattern with
  | leaf atom => exact everywhere_leaf.2 fun _ => id
  | opt body ih => exact everywhere_opt.2 ⟨fun _ => id, ih⟩
  | rep body ih => exact everywhere_rep.2 ⟨fun _ => id, ih⟩
  | seq parts ih => exact everywhere_seq.2 ⟨fun _ => id, children parts ih⟩
  | alt branches ih => exact everywhere_alt.2 ⟨fun _ => id, children branches ih⟩

end Synopsis.Pattern

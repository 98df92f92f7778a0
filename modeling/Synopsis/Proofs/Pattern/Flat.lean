import Synopsis.Interface.Problem
import Synopsis.Proofs.Pattern.Node

/-!
# Flat patterns

A pattern is flat when no sequence or choice in it has a single child. The building functions for
sequences and choices keep patterns flat, and replacing leaves by flat patterns does.
-/
namespace Synopsis.Pattern

variable {α β : Type}

/-- Whether the root is a sequence or choice with a single child. -/
def isSole : Pattern α → Bool
  | .seq parts => decide (parts.length = 1)
  | .alt branches => decide (branches.length = 1)
  | _ => false

/-- No sequence or choice in the pattern has a single child. -/
abbrev Flat (pattern : Pattern α) : Prop := pattern.Everywhere fun node => node.isSole = false

mutual

/-- The groups with a single child are the nodes that are such groups, in order. -/
theorem soleChildren_eq : ∀ pattern : Pattern α,
    pattern.soleChildren = pattern.nodes.filter isSole
  | .seq parts => by
    rw [soleChildren, nodes, List.filter_cons, soleChildrenOf_eq parts]
    by_cases single : parts.length = 1 <;> simp [isSole, single]
  | .alt branches => by
    rw [soleChildren, nodes, List.filter_cons, soleChildrenOf_eq branches]
    by_cases single : branches.length = 1 <;> simp [isSole, single]
  | .opt body => soleChildren_eq body
  | .rep body => soleChildren_eq body
  | .leaf _ => rfl

/-- The groups with a single child in a list of patterns are such nodes of its members. -/
theorem soleChildrenOf_eq : ∀ patterns : List (Pattern α),
    soleChildrenOf patterns = (nodesOf patterns).filter isSole
  | [] => rfl
  | first :: later => by
    rw [soleChildrenOf, nodesOf, List.filter_append, soleChildren_eq first,
      soleChildrenOf_eq later]

end

/-- A pattern without groups with a single child is flat. -/
theorem soleChildren_eq_nil {pattern : Pattern α} : pattern.soleChildren = [] ↔ pattern.Flat := by
  rw [soleChildren_eq, List.filter_eq_nil_iff]
  simp only [Bool.not_eq_true]
  rfl

/-- Flat parts in order are a flat pattern. -/
theorem flat_sequence {parts : List (Pattern α)} (flat : ∀ part ∈ parts, part.Flat) :
    (sequence parts).Flat := by
  match parts with
  | [] => exact everywhere_seq.2 ⟨rfl, flat⟩
  | [part] => exact flat part List.mem_cons_self
  | first :: second :: later => exact everywhere_seq.2 ⟨by simp [isSole], flat⟩

/-- A choice of flat branches is a flat pattern. -/
theorem flat_choice {branches : List (Pattern α)} (flat : ∀ branch ∈ branches, branch.Flat) :
    (choice branches).Flat := by
  match branches with
  | [] => exact everywhere_alt.2 ⟨rfl, flat⟩
  | [branch] => exact flat branch List.mem_cons_self
  | first :: second :: later => exact everywhere_alt.2 ⟨by simp [isSole], flat⟩

/-- Collapsing the root keeps a pattern flat. -/
theorem flat_collapse {pattern : Pattern α} (flat : pattern.Flat) : pattern.collapse.Flat := by
  unfold collapse
  split
  · exact (everywhere_seq.1 flat).2 _ List.mem_cons_self
  · exact (everywhere_alt.1 flat).2 _ List.mem_cons_self
  · exact flat

/-- A leaf is flat. -/
theorem flat_leaf (atom : α) : (leaf atom).Flat := everywhere_leaf.2 rfl

/-- Replacing leaves by flat patterns keeps a pattern flat. -/
theorem flat_bind {f : α → Pattern β} {pattern : Pattern α} (flat : pattern.Flat)
    (replaced : ∀ atom, (f atom).Flat) : (pattern.bind f).Flat := by
  induction pattern with
  | leaf atom => exact replaced atom
  | opt body ih => exact everywhere_opt.2 ⟨rfl, ih (everywhere_opt.1 flat).2⟩
  | rep body ih => exact everywhere_rep.2 ⟨rfl, ih (everywhere_rep.1 flat).2⟩
  | seq parts ih =>
    obtain ⟨root, below⟩ := everywhere_seq.1 flat
    rw [bind, bindAll_eq]
    refine everywhere_seq.2 ⟨?_, List.forall_mem_map.2 fun part mem => ih part mem (below part mem)⟩
    rw [isSole, List.length_map]
    exact root
  | alt branches ih =>
    obtain ⟨root, below⟩ := everywhere_alt.1 flat
    rw [bind, bindAll_eq]
    refine everywhere_alt.2
      ⟨?_, List.forall_mem_map.2 fun branch mem => ih branch mem (below branch mem)⟩
    rw [isSole, List.length_map]
    exact root

/-- A pattern that is flat with its leaves replaced is flat with them. -/
theorem flat_of_bind {f : α → Pattern β} {pattern : Pattern α} (flat : (pattern.bind f).Flat) :
    pattern.Flat := by
  induction pattern with
  | leaf atom => exact flat_leaf atom
  | opt body ih => exact everywhere_opt.2 ⟨rfl, ih (everywhere_opt.1 flat).2⟩
  | rep body ih => exact everywhere_rep.2 ⟨rfl, ih (everywhere_rep.1 flat).2⟩
  | seq parts ih =>
    rw [bind, bindAll_eq] at flat
    obtain ⟨root, below⟩ := everywhere_seq.1 flat
    rw [isSole, List.length_map] at root
    exact everywhere_seq.2
      ⟨root, fun part mem => ih part mem (below _ (List.mem_map_of_mem mem))⟩
  | alt branches ih =>
    rw [bind, bindAll_eq] at flat
    obtain ⟨root, below⟩ := everywhere_alt.1 flat
    rw [isSole, List.length_map] at root
    exact everywhere_alt.2
      ⟨root, fun branch mem => ih branch mem (below _ (List.mem_map_of_mem mem))⟩

end Synopsis.Pattern

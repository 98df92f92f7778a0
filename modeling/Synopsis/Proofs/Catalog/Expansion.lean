import Mathlib.Algebra.Group.Action.Defs
import Mathlib.Algebra.Order.BigOperators.Group.List
import Mathlib.Algebra.Order.Ring.Nat
import Synopsis.Proofs.Interface.Problem
import Synopsis.Proofs.Pattern.Substitution

/-!
# What an expanded pattern describes

Expanding a pattern lets each mention of an option be made by any of its synonyms, whatever the
other mentions are made by, and says nothing else. With a consistent catalog a second expansion
describes nothing new, although it makes the tree larger.
-/
namespace Synopsis

namespace Catalog

/-- What an atom is expanded to describes one mention of a member of its group. -/
theorem mem_language_spellings (catalog : Catalog) (atom : Atom) (word : List Atom) :
    word ∈ (catalog.spellings atom).language ↔
      ∃ spelling, spelling ∈ catalog.group atom ∧ word = [spelling] := by
  rw [spellings_eq_choice, Pattern.mem_language_choice_leaf]
  rfl

/-- The words of an expanded pattern are those of the pattern with every mention replaced by a
member of its group. -/
theorem mem_language_expand {catalog : Catalog} {pattern : Pattern Atom} {word : List Atom} :
    word ∈ (pattern.expand catalog).language ↔
      ∃ written ∈ pattern.language,
        List.Forall₂ (fun atom spelling => spelling ∈ catalog.group atom) written word := by
  rw [Pattern.expand, Pattern.language_bind, Pattern.mem_substitute]
  simp only [Pattern.replaced_iff_forall₂ (mem_language_spellings catalog)]

/-- The leaves of an expanded pattern are the groups of its leaves. -/
theorem length_leaves_expand (catalog : Catalog) (pattern : Pattern Atom) :
    (pattern.expand catalog).leaves.length =
      (pattern.leaves.map fun atom => (catalog.group atom).toList.length).sum := by
  rw [Pattern.expand, Pattern.leaves_bind, List.length_flatMap]
  simp only [leaves_spellings]

section Twice

variable {catalog : Catalog} (consistent : catalog.Consistent) (options : catalog.OptionsOnly)

include consistent options

/-- A second expansion describes nothing new. -/
theorem language_expand_twice (pattern : Pattern Atom) :
    ((pattern.expand catalog).expand catalog).language = (pattern.expand catalog).language := by
  refine Language.ext fun word => ?_
  simp only [mem_language_expand]
  constructor
  · rintro ⟨middle, ⟨written, described, once⟩, again⟩
    refine ⟨written, described, ?_⟩
    -- a member of the group of a member is in the group itself
    refine List.forall₂_iff_get.2 ⟨once.length_eq.trans again.length_eq, fun place left right => ?_⟩
    have between : place < middle.length := once.length_eq ▸ left
    have first := once.get left between
    have second := again.get between right
    rwa [group_eq_of_mem consistent options first] at second
  · rintro ⟨written, described, once⟩
    refine ⟨word, ⟨written, described, once⟩, List.forall₂_same.2 fun spelling mem => ?_⟩
    obtain ⟨place, bound, rfl⟩ := List.mem_iff_getElem.1 mem
    have member := once.get (once.length_eq ▸ bound) bound
    exact mem_own_group consistent options member

/-- What each member of a group adds by its own group, all members add equally. -/
theorem sum_map_group (weight : AtomSet → Nat) (atom : Atom) :
    ((catalog.group atom).toList.map fun spelling => weight (catalog.group spelling)).sum =
      (catalog.group atom).toList.length * weight (catalog.group atom) := by
  have same : ∀ spelling ∈ (catalog.group atom).toList,
      weight (catalog.group spelling) = weight (catalog.group atom) := by
    intro spelling mem
    rw [group_eq_of_mem consistent options mem]
  rw [List.map_congr_left same, List.map_const', List.sum_replicate, smul_eq_mul]

/-- A second expansion puts a group in the place of each member of a group. -/
theorem length_leaves_expand_twice (pattern : Pattern Atom) :
    ((pattern.expand catalog).expand catalog).leaves.length =
      (pattern.leaves.map fun atom =>
        (catalog.group atom).toList.length * (catalog.group atom).toList.length).sum := by
  have square : ∀ atom, ((catalog.group atom).toList.flatMap fun spelling =>
      (catalog.group spelling).toList).length =
        (catalog.group atom).toList.length * (catalog.group atom).toList.length := by
    intro atom
    rw [List.length_flatMap]
    exact sum_map_group consistent options (fun set => set.toList.length) atom
  rw [Pattern.expand, Pattern.expand, Pattern.leaves_bind, Pattern.leaves_bind, List.flatMap_assoc,
    List.length_flatMap]
  simp only [leaves_spellings, square]

/-- A second expansion makes a pattern larger unless each of its leaves stands for one atom. -/
theorem length_leaves_expand_lt_iff (pattern : Pattern Atom) :
    (pattern.expand catalog).leaves.length <
        ((pattern.expand catalog).expand catalog).leaves.length ↔
      ∃ atom ∈ pattern.leaves, 1 < (catalog.group atom).toList.length := by
  rw [length_leaves_expand, length_leaves_expand_twice consistent options]
  constructor
  · intro grows
    by_contra none
    push Not at none
    refine Nat.lt_irrefl _ (Nat.lt_of_lt_of_le grows (List.sum_le_sum fun atom mem => ?_))
    calc (catalog.group atom).toList.length * (catalog.group atom).toList.length
        ≤ 1 * (catalog.group atom).toList.length := Nat.mul_le_mul_right _ (none atom mem)
      _ = (catalog.group atom).toList.length := Nat.one_mul _
  · rintro ⟨atom, mem, several⟩
    refine List.sum_lt_sum _ _ (fun other _ => Nat.le_mul_self _) ⟨atom, mem, ?_⟩
    exact Nat.lt_mul_self_iff.2 several

end Twice

end Catalog

/-- An expanded pattern describes the words of the pattern with each mention, on its own, made by
any member of its group. With a consistent catalog of options, expanding once more describes the
same words by a tree that is larger wherever an option has several spellings. -/
theorem expand_describes_groups (pattern : Pattern Atom) (catalog : Catalog) :
    (∀ word, word ∈ (pattern.expand catalog).language ↔
      ∃ written ∈ pattern.language,
        List.Forall₂ (fun atom spelling => spelling ∈ catalog.group atom) written word) ∧
    (catalog.Consistent → catalog.OptionsOnly →
      ((pattern.expand catalog).expand catalog).language = (pattern.expand catalog).language ∧
      ((pattern.expand catalog).leaves.length <
          ((pattern.expand catalog).expand catalog).leaves.length ↔
        ∃ atom ∈ pattern.leaves, 1 < (catalog.group atom).toList.length)) := by
  refine ⟨fun word => Catalog.mem_language_expand, fun consistent options => ⟨?_, ?_⟩⟩
  · exact Catalog.language_expand_twice consistent options pattern
  · exact Catalog.length_leaves_expand_lt_iff consistent options pattern

open Catalog (verboseCatalog)

/-- A repeated option before a command. -/
def loudPattern : Pattern Atom := .seq [.rep (.leaf (.short 'v')), .leaf (.command "run")]

/-- Two rounds of the repetition are spelled differently; expanding once more describes the same
words by a larger tree. -/
theorem expand_describes_groups_loud :
    [.short 'v', .long "verbose", .command "run"] ∈ (loudPattern.expand verboseCatalog).language ∧
    verboseCatalog.Consistent ∧ verboseCatalog.OptionsOnly ∧
    ((loudPattern.expand verboseCatalog).expand verboseCatalog).language =
      (loudPattern.expand verboseCatalog).language ∧
    (loudPattern.expand verboseCatalog).leaves.length <
      ((loudPattern.expand verboseCatalog).expand verboseCatalog).leaves.length := by
  obtain ⟨words, twice⟩ := expand_describes_groups loudPattern verboseCatalog
  have consistent : verboseCatalog.Consistent := by decide +kernel
  have options : verboseCatalog.OptionsOnly := by decide +kernel
  obtain ⟨same, grows⟩ := twice consistent options
  refine ⟨(words _).2 ⟨[.short 'v', .short 'v', .command "run"], ?_, ?_⟩, consistent, options, same,
    grows.2 ⟨.short 'v', by decide +kernel, by decide +kernel⟩⟩
  · have rounds : ∀ round ∈ [[Atom.short 'v'], [Atom.short 'v']],
        round ∈ (Pattern.leaf (Atom.short 'v')).language := by
      simp [Pattern.mem_language_leaf]
    refine Pattern.mem_languageInOrder_cons.2 ⟨[.short 'v', .short 'v'], ?_, _, ?_, rfl⟩
    · exact Pattern.mem_language_rep.2 ⟨_, List.cons_ne_nil _ _, rounds, rfl⟩
    · exact Pattern.mem_languageInOrder_cons.2 ⟨[.command "run"], rfl, [], rfl, rfl⟩
  · exact .cons (by decide +kernel) (.cons (by decide +kernel) (.cons (by decide +kernel) .nil))

end Synopsis

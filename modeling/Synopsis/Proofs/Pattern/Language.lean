import Mathlib.Computability.Language
import Synopsis.Proofs.Pattern.Node

/-!
# The language of a pattern

A pattern describes finite words of leaves: the leaves that one invocation mentions, in order. A
sequence describes the words of its parts one after the other, a choice those of its branches, an
optional body those of the body and the empty word, and a repeated body one or more words of the
body one after the other. Collapsing the root of a pattern keeps its language.
-/
namespace Synopsis.Pattern

open scoped Computability

variable {α : Type}

mutual

/-- The words that a pattern describes. -/
def language : Pattern α → Language α
  | .seq parts => languageInOrder parts
  | .alt branches => languageOfAny branches
  | .opt body => language body + 1
  | .rep body => language body * (language body)∗
  | .leaf atom => {[atom]}

/-- One word of each pattern of a list, one after the other. -/
def languageInOrder : List (Pattern α) → Language α
  | [] => 1
  | first :: later => language first * languageInOrder later

/-- The words of every pattern of a list. -/
def languageOfAny : List (Pattern α) → Language α
  | [] => 0
  | first :: later => language first + languageOfAny later

end

/-- Parts in order describe the product of what each of them describes. -/
theorem language_seq (parts : List (Pattern α)) :
    (seq parts).language = (parts.map language).prod := by
  rw [language]
  induction parts with
  | nil => rfl
  | cons first later ih => rw [languageInOrder, ih, List.map_cons, List.prod_cons]

/-- A choice describes the sum of what each of its branches describes. -/
theorem language_alt (branches : List (Pattern α)) :
    (alt branches).language = (branches.map language).sum := by
  rw [language]
  induction branches with
  | nil => rfl
  | cons first later ih => rw [languageOfAny, ih, List.map_cons, List.sum_cons]

/-- Collapsing the root keeps the language: a single part or branch describes what its group
does. -/
theorem language_collapse (pattern : Pattern α) : pattern.collapse.language = pattern.language := by
  unfold collapse
  split
  · rw [language_seq, List.map_singleton, List.prod_singleton]
  · rw [language_alt, List.map_singleton, List.sum_singleton]
  · rfl

/-- A leaf describes itself once. -/
theorem mem_language_leaf {atom : α} {word : List α} :
    word ∈ (leaf atom).language ↔ word = [atom] := Iff.rfl

/-- An optional body describes the words of the body and the empty word. -/
theorem mem_language_opt {body : Pattern α} {word : List α} :
    word ∈ (opt body).language ↔ word ∈ body.language ∨ word = [] := by
  rw [language, Language.mem_add, Language.mem_one]

/-- No part describes the empty word and nothing else. -/
theorem mem_languageInOrder_nil {word : List α} :
    word ∈ languageInOrder ([] : List (Pattern α)) ↔ word = [] := Iff.rfl

/-- Patterns in order describe a word of the first one before a word of the others. -/
theorem mem_languageInOrder_cons {first : Pattern α} {later : List (Pattern α)}
    {word : List α} :
    word ∈ languageInOrder (first :: later) ↔
      ∃ head ∈ first.language, ∃ tail ∈ languageInOrder later, head ++ tail = word := by
  rw [languageInOrder, Language.mem_mul]

/-- A choice describes the words of each branch. -/
theorem mem_language_alt {branches : List (Pattern α)} {word : List α} :
    word ∈ (alt branches).language ↔ ∃ branch ∈ branches, word ∈ branch.language := by
  rw [language]
  induction branches with
  | nil =>
    simp only [languageOfAny, Language.notMem_zero, List.not_mem_nil, false_and, exists_false]
  | cons first later ih =>
    simp only [languageOfAny, Language.mem_add, ih, List.mem_cons, exists_eq_or_imp]

/-- A repeated body describes one or more words of the body, one after the other. -/
theorem mem_language_rep {body : Pattern α} {word : List α} :
    word ∈ (rep body).language ↔
      ∃ rounds, rounds ≠ [] ∧ (∀ round ∈ rounds, round ∈ body.language) ∧
        word = rounds.flatten := by
  rw [language, Language.mem_mul]
  constructor
  · rintro ⟨first, mem, rest, ⟨later, rfl, each⟩, rfl⟩
    exact ⟨first :: later, List.cons_ne_nil first later, List.forall_mem_cons.2 ⟨mem, each⟩, rfl⟩
  · rintro ⟨rounds, filled, each, rfl⟩
    cases rounds with
    | nil => exact absurd rfl filled
    | cons first later =>
      have ⟨mem, others⟩ := List.forall_mem_cons.1 each
      exact ⟨first, mem, later.flatten, ⟨later, rfl, others⟩, rfl⟩

/-- Patterns in order mention only leaves that a member of their list mentions. -/
theorem mem_leavesOf_of_word {parts : List (Pattern α)} {word : List α} {atom : α}
    (each : ∀ part ∈ parts, ∀ word ∈ part.language, atom ∈ word → atom ∈ part.leaves)
    (described : word ∈ languageInOrder parts) (mem : atom ∈ word) : atom ∈ leavesOf parts := by
  induction parts generalizing word with
  | nil =>
    rw [mem_languageInOrder_nil.1 described] at mem
    exact absurd mem List.not_mem_nil
  | cons first later ih =>
    have ⟨firstWords, laterWords⟩ := List.forall_mem_cons.1 each
    obtain ⟨head, headMem, tail, tailMem, rfl⟩ := mem_languageInOrder_cons.1 described
    rw [leavesOf, List.mem_append]
    rcases List.mem_append.1 mem with inHead | inTail
    · exact Or.inl (firstWords head headMem inHead)
    · exact Or.inr (ih laterWords tailMem inTail)

/-- A word mentions only leaves of its pattern. -/
theorem mem_leaves_of_word {pattern : Pattern α} {word : List α} {atom : α}
    (described : word ∈ pattern.language) (mem : atom ∈ word) : atom ∈ pattern.leaves := by
  induction pattern generalizing word with
  | leaf other =>
    rw [mem_language_leaf.1 described] at mem
    exact mem
  | opt body ih =>
    rcases mem_language_opt.1 described with inBody | rfl
    · exact ih inBody mem
    · exact absurd mem List.not_mem_nil
  | rep body ih =>
    obtain ⟨rounds, -, each, rfl⟩ := mem_language_rep.1 described
    obtain ⟨round, roundMem, inRound⟩ := List.mem_flatten.1 mem
    exact ih (each round roundMem) inRound
  | alt branches ih =>
    obtain ⟨branch, branchMem, inBranch⟩ := mem_language_alt.1 described
    rw [leaves, leavesOf_eq, List.mem_flatMap]
    exact ⟨branch, branchMem, ih branch branchMem inBranch mem⟩
  | seq parts ih => exact mem_leavesOf_of_word (fun part partMem _ => ih part partMem) described mem

end Synopsis.Pattern

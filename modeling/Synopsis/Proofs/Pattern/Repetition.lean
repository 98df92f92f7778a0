import Synopsis.Pattern.Repetition
import Synopsis.Proofs.Pattern.Language

/-!
# Repetition of leaves in words

Whether a leaf may repeat is judged on the tree, without looking at any word. The judgment misses
no word that mentions the leaf twice: without a repeated body around it, a leaf is mentioned in a
word at most as often as it stands in the tree. Where no leaf stands in two branches of a choice,
some word mentions every leaf of the tree as often as it stands there, so the judgment is exact.
-/
namespace Synopsis.Pattern

variable {α : Type} [DecidableEq α]

/-- Patterns in order mention a leaf no more often than it stands in them, if each does. -/
theorem count_le_leavesOf {target : α} {parts : List (Pattern α)} {word : List α}
    (each : ∀ part ∈ parts, ∀ word ∈ part.language, word.count target ≤ part.leaves.count target)
    (described : word ∈ languageInOrder parts) :
    word.count target ≤ (leavesOf parts).count target := by
  induction parts generalizing word with
  | nil =>
    rw [mem_languageInOrder_nil.1 described]
    exact Nat.zero_le _
  | cons first later ih =>
    have ⟨firstWords, laterWords⟩ := List.forall_mem_cons.1 each
    obtain ⟨head, headMem, tail, tailMem, rfl⟩ := mem_languageInOrder_cons.1 described
    rw [leavesOf, List.count_append, List.count_append]
    exact Nat.add_le_add (firstWords head headMem) (ih laterWords tailMem)

/-- A leaf of one pattern of a list stands in the list at least as often. -/
theorem count_leaves_le_leavesOf {target : α} {patterns : List (Pattern α)} {pattern : Pattern α}
    (mem : pattern ∈ patterns) :
    pattern.leaves.count target ≤ (leavesOf patterns).count target := by
  rw [leavesOf_eq, List.flatMap_def]
  exact (List.sublist_flatten_of_mem (List.mem_map_of_mem mem)).count_le target

/-- A leaf that may repeat in no pattern of a list may repeat in none of its members. -/
theorem mayRepeat_eq_false_of_mem {target : α} {patterns : List (Pattern α)} {pattern : Pattern α}
    (once : anyMayRepeat target patterns = false) (mem : pattern ∈ patterns) :
    pattern.mayRepeat target = false := by
  rw [anyMayRepeat_eq, List.any_eq_false] at once
  exact Bool.eq_false_iff.2 (once pattern mem)

/-- A leaf that may not repeat is mentioned in a word no more often than it stands in the tree. -/
theorem count_le_leaves {target : α} {pattern : Pattern α} {word : List α}
    (once : pattern.mayRepeat target = false) (described : word ∈ pattern.language) :
    word.count target ≤ pattern.leaves.count target := by
  induction pattern generalizing word with
  | leaf atom =>
    rw [mem_language_leaf.1 described]
    exact Nat.le_refl _
  | opt body ih =>
    rcases mem_language_opt.1 described with inBody | rfl
    · exact ih once inBody
    · exact Nat.zero_le _
  | rep body ih =>
    have absent : target ∉ word := by
      intro mem
      have leaf : target ∈ (rep body).leaves := mem_leaves_of_word described mem
      exact of_decide_eq_false once leaf
    rw [List.count_eq_zero.2 absent]
    exact Nat.zero_le _
  | alt branches ih =>
    obtain ⟨branch, mem, inBranch⟩ := mem_language_alt.1 described
    exact Nat.le_trans (ih branch mem (mayRepeat_eq_false_of_mem once mem) inBranch)
      (count_leaves_le_leavesOf mem)
  | seq parts ih =>
    rw [mayRepeat, Bool.or_eq_false_iff] at once
    exact count_le_leavesOf
      (fun part mem word => ih part mem (mayRepeat_eq_false_of_mem once.1 mem)) described

/-- A leaf that may not repeat is mentioned in every word at most once. -/
theorem count_le_one {target : α} {pattern : Pattern α} {word : List α}
    (once : pattern.mayRepeat target = false) (described : word ∈ pattern.language) :
    word.count target ≤ 1 := by
  induction pattern generalizing word with
  | leaf atom =>
    rw [mem_language_leaf.1 described]
    exact List.count_le_length
  | opt body ih =>
    rcases mem_language_opt.1 described with inBody | rfl
    · exact ih once inBody
    · exact Nat.zero_le _
  | rep body =>
    have absent := List.count_eq_zero.2 (of_decide_eq_false once)
    have bound := count_le_leaves once described
    rw [leaves, absent] at bound
    exact Nat.le_trans bound (Nat.zero_le _)
  | alt branches ih =>
    obtain ⟨branch, mem, inBranch⟩ := mem_language_alt.1 described
    exact ih branch mem (mayRepeat_eq_false_of_mem once mem) inBranch
  | seq parts =>
    have bound := count_le_leaves once described
    rw [mayRepeat, Bool.or_eq_false_iff, decide_eq_false_iff_not, Nat.not_lt] at once
    exact Nat.le_trans bound once.2

/-- Two patterns have no leaf in common. -/
def Apart (first second : Pattern α) : Prop := ∀ atom ∈ first.leaves, atom ∉ second.leaves

instance : DecidableRel (Apart (α := α)) := fun first second =>
  inferInstanceAs (Decidable (∀ atom ∈ first.leaves, atom ∉ second.leaves))

/-- What makes the judgment exact at one node: a choice has a branch, and no leaf stands in two of
its branches. -/
def DisjointNode : Pattern α → Prop
  | .alt branches => branches ≠ [] ∧ branches.Pairwise Apart
  | _ => True

instance : DecidablePred (DisjointNode (α := α))
  | .alt branches => inferInstanceAs (Decidable (branches ≠ [] ∧ branches.Pairwise Apart))
  | .seq _ => inferInstanceAs (Decidable True)
  | .opt _ => inferInstanceAs (Decidable True)
  | .rep _ => inferInstanceAs (Decidable True)
  | .leaf _ => inferInstanceAs (Decidable True)

/-- No choice is empty, and no leaf stands in two branches of one choice. -/
abbrev DisjointChoices (pattern : Pattern α) : Prop := pattern.Everywhere DisjointNode

/-- Of branches without common leaves, one holds a leaf as often as all of them. -/
theorem exists_branch_count (target : α) {branches : List (Pattern α)} (filled : branches ≠ [])
    (apart : branches.Pairwise Apart) :
    ∃ branch ∈ branches, (leavesOf branches).count target = branch.leaves.count target := by
  induction branches with
  | nil => exact absurd rfl filled
  | cons first later ih =>
    have ⟨fromFirst, others⟩ := List.pairwise_cons.1 apart
    rw [leavesOf, List.count_append]
    by_cases present : target ∈ leavesOf later
    · have absent : target ∉ first.leaves := by
        rw [leavesOf_eq, List.mem_flatMap] at present
        obtain ⟨branch, mem, inBranch⟩ := present
        exact fun inFirst => fromFirst branch mem target inFirst inBranch
      have some : later ≠ [] := by
        rintro rfl
        exact List.not_mem_nil present
      obtain ⟨branch, mem, same⟩ := ih some others
      exact ⟨branch, List.mem_cons_of_mem first mem,
        by rw [List.count_eq_zero.2 absent, same, Nat.zero_add]⟩
    · exact ⟨first, List.mem_cons_self, by rw [List.count_eq_zero.2 present, Nat.add_zero]⟩

/-- Patterns in order have a word that mentions a leaf as often as it stands in them, if each has
one. -/
theorem exists_word_of_parts {target : α} {parts : List (Pattern α)}
    (each : ∀ part ∈ parts,
      ∃ word ∈ part.language, part.leaves.count target ≤ word.count target) :
    ∃ word ∈ languageInOrder parts, (leavesOf parts).count target ≤ word.count target := by
  induction parts with
  | nil => exact ⟨[], rfl, Nat.le_refl _⟩
  | cons first later ih =>
    have ⟨⟨head, headMem, headCount⟩, others⟩ := List.forall_mem_cons.1 each
    obtain ⟨tail, tailMem, tailCount⟩ := ih others
    refine ⟨head ++ tail, mem_languageInOrder_cons.2 ⟨head, headMem, tail, tailMem, rfl⟩, ?_⟩
    rw [leavesOf, List.count_append, List.count_append]
    exact Nat.add_le_add headCount tailCount

/-- Every word of one of several patterns in order goes on to a word of all of them. -/
theorem exists_word_through {target : α} {parts : List (Pattern α)}
    (each : ∀ part ∈ parts,
      ∃ word ∈ part.language, part.leaves.count target ≤ word.count target)
    {part : Pattern α} (mem : part ∈ parts) {word : List α} (described : word ∈ part.language) :
    ∃ whole ∈ languageInOrder parts, word.count target ≤ whole.count target := by
  induction parts with
  | nil => exact absurd mem List.not_mem_nil
  | cons first later ih =>
    obtain ⟨⟨head, headMem, -⟩, others⟩ := List.forall_mem_cons.1 each
    rcases List.mem_cons.1 mem with rfl | inLater
    · obtain ⟨tail, tailMem, -⟩ := exists_word_of_parts others
      refine ⟨word ++ tail, mem_languageInOrder_cons.2 ⟨word, described, tail, tailMem, rfl⟩, ?_⟩
      rw [List.count_append]
      exact Nat.le_add_right _ _
    · obtain ⟨tail, tailMem, count⟩ := ih others inLater
      refine ⟨head ++ tail, mem_languageInOrder_cons.2 ⟨head, headMem, tail, tailMem, rfl⟩, ?_⟩
      rw [List.count_append]
      exact Nat.le_trans count (Nat.le_add_left _ _)

/-- With disjoint choices, some word mentions a leaf as often as it stands in the tree. -/
theorem exists_word_count_leaves (target : α) {pattern : Pattern α}
    (disjoint : pattern.DisjointChoices) :
    ∃ word ∈ pattern.language, pattern.leaves.count target ≤ word.count target := by
  induction pattern with
  | leaf atom => exact ⟨[atom], rfl, Nat.le_refl _⟩
  | opt body ih =>
    obtain ⟨word, mem, count⟩ := ih (everywhere_opt.1 disjoint).2
    exact ⟨word, mem_language_opt.2 (Or.inl mem), count⟩
  | rep body ih =>
    obtain ⟨word, mem, count⟩ := ih (everywhere_rep.1 disjoint).2
    have round : ∀ other ∈ [word], other ∈ body.language := List.forall_mem_singleton.2 mem
    exact ⟨word, mem_language_rep.2 ⟨[word], by simp, round, by simp⟩, count⟩
  | alt branches ih =>
    obtain ⟨⟨filled, apart⟩, below⟩ := everywhere_alt.1 disjoint
    obtain ⟨branch, mem, same⟩ := exists_branch_count target filled apart
    obtain ⟨word, described, count⟩ := ih branch mem (below branch mem)
    exact ⟨word, mem_language_alt.2 ⟨branch, mem, described⟩, same ▸ count⟩
  | seq parts ih =>
    have below := (everywhere_seq.1 disjoint).2
    exact exists_word_of_parts fun part mem => ih part mem (below part mem)

/-- With disjoint choices, a leaf that may repeat is mentioned twice in some word. -/
theorem exists_word_of_mayRepeat {target : α} {pattern : Pattern α}
    (disjoint : pattern.DisjointChoices) (repeats : pattern.mayRepeat target = true) :
    ∃ word ∈ pattern.language, 2 ≤ word.count target := by
  induction pattern with
  | leaf atom => exact absurd repeats Bool.false_ne_true
  | opt body ih =>
    obtain ⟨word, mem, twice⟩ := ih (everywhere_opt.1 disjoint).2 repeats
    exact ⟨word, mem_language_opt.2 (Or.inl mem), twice⟩
  | rep body =>
    obtain ⟨word, mem, count⟩ := exists_word_count_leaves target (everywhere_rep.1 disjoint).2
    have once : 0 < body.leaves.count target := List.count_pos_iff.2 (of_decide_eq_true repeats)
    have rounds : ∀ other ∈ [word, word], other ∈ body.language := by simpa using mem
    refine ⟨[word, word].flatten, mem_language_rep.2 ⟨_, by simp, rounds, rfl⟩, ?_⟩
    simp only [List.flatten_cons, List.flatten_nil, List.append_nil, List.count_append]
    omega
  | alt branches ih =>
    rw [mayRepeat, anyMayRepeat_eq, List.any_eq_true] at repeats
    obtain ⟨branch, mem, inBranch⟩ := repeats
    have below := (everywhere_alt.1 disjoint).2 branch mem
    obtain ⟨word, described, twice⟩ := ih branch mem below inBranch
    exact ⟨word, mem_language_alt.2 ⟨branch, mem, described⟩, twice⟩
  | seq parts ih =>
    have below := (everywhere_seq.1 disjoint).2
    have each : ∀ part ∈ parts,
        ∃ word ∈ part.language, part.leaves.count target ≤ word.count target :=
      fun part mem => exists_word_count_leaves target (below part mem)
    rw [mayRepeat, Bool.or_eq_true, decide_eq_true_eq] at repeats
    rcases repeats with inPart | several
    · rw [anyMayRepeat_eq, List.any_eq_true] at inPart
      obtain ⟨part, mem, again⟩ := inPart
      obtain ⟨word, described, twice⟩ := ih part mem (below part mem) again
      obtain ⟨whole, wholeMem, count⟩ := exists_word_through each mem described
      exact ⟨whole, wholeMem, Nat.le_trans twice count⟩
    · obtain ⟨whole, wholeMem, count⟩ := exists_word_of_parts each
      exact ⟨whole, wholeMem, Nat.le_trans several count⟩

end Synopsis.Pattern

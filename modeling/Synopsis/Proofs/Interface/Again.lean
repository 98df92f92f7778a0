import Synopsis.Proofs.Catalog.Expansion
import Synopsis.Proofs.Pattern.Sequence

/-!
# Interfaces that are assembled again

An assembled interface may be assembled once more. Then every spelling of an option stands for all
of them again. The catalog keeps its entries, but the judgment on repetition counts the spellings in
a sequence whatever choice they stand in, so that options with several spellings may repeat there.
-/
namespace Synopsis

namespace Catalog

/-- Recording repetition keeps what atoms are expanded to. -/
theorem expand_recordRepeats (catalog : Catalog) (recorded pattern : Pattern Atom) :
    pattern.expand (catalog.recordRepeats recorded) = pattern.expand catalog := by
  have spellings : (catalog.recordRepeats recorded).spellings = catalog.spellings := by
    funext atom
    rw [spellings_eq_choice, spellings_eq_choice, group, group, synonymsOf_recordRepeats]
  rw [Pattern.expand, Pattern.expand, spellings]

/-- Every atom is expanded to at least one. -/
theorem length_group_pos (catalog : Catalog) (atom : Atom) :
    0 < (catalog.group atom).toList.length := by
  obtain ⟨spelling, mem⟩ := exists_mem_group catalog atom
  exact List.length_pos_of_mem mem

/-- An atom is expanded to several ones if it is an option with several synonyms. -/
theorem one_lt_group_iff (catalog : Catalog) (atom : Atom) :
    1 < (catalog.group atom).toList.length ↔
      atom.isOption = true ∧ 1 < (catalog.synonymsOf atom).toList.length := by
  have single : (AtomSet.ofList [atom]).toList.length = 1 := rfl
  have empty : ∀ {set : AtomSet}, set.isEmpty = true → set.toList.length = 0 := by
    intro set none
    rw [AtomSet.isEmpty, List.isEmpty_iff] at none
    rw [none, List.length_nil]
  rw [group]
  cases option : atom.isOption with
  | false => simp [single]
  | true =>
    cases none : (catalog.synonymsOf atom).isEmpty with
    | false => simp
    | true => simp [single, empty none]

/-- No leaf may repeat in what an atom is expanded to when that is expanded again. -/
theorem mayRepeat_spellings_twice (catalog : Catalog) (atom target : Atom) :
    ((catalog.spellings atom).bind catalog.spellings).mayRepeat target = false := by
  rw [spellings_eq_choice, Pattern.bind_choice_leaf, Pattern.mayRepeat_choice, List.any_map]
  exact List.any_eq_false.2 fun spelling _ =>
    Bool.eq_false_iff.1 (mayRepeat_spellings catalog spelling target)

section Twice

variable {catalog : Catalog} (consistent : catalog.Consistent) (options : catalog.OptionsOnly)

include consistent options

/-- Expanding again multiplies a spelling by the number of the spellings in its group. -/
theorem count_leaves_spellings_twice (atom spelling : Atom) :
    ((catalog.spellings atom).bind catalog.spellings).leaves.count spelling =
      (catalog.group spelling).toList.length * (catalog.spellings atom).leaves.count spelling := by
  have each : (List.count spelling ∘ fun member => (catalog.spellings member).leaves) =
      fun member => if spelling ∈ catalog.group member then 1 else 0 :=
    funext fun member => count_leaves_spellings catalog member spelling
  rw [Pattern.leaves_bind, List.count_flatMap, leaves_spellings, each, AtomSet.count_toList,
    sum_map_group consistent options (fun set => if spelling ∈ set then 1 else 0)]
  by_cases mem : spelling ∈ catalog.group atom
  · rw [group_eq_of_mem consistent options mem]
  · rw [if_neg mem, Nat.mul_zero, Nat.mul_zero]

/-- Expanding again gives no other leaves. -/
theorem mem_leaves_expand_twice (pattern : Pattern Atom) (target : Atom) :
    target ∈ ((pattern.expand catalog).expand catalog).leaves ↔
      target ∈ (pattern.expand catalog).leaves := by
  have counts := fun atom => count_leaves_spellings_twice consistent options atom target
  rw [Pattern.expand, Pattern.expand, Pattern.bind_bind]
  exact Pattern.mem_leaves_bind_mul (length_group_pos catalog target) counts pattern

/-- After expanding again a leaf may repeat if it could before, or if it is one of several spellings
of an option that stands in a sequence. -/
theorem mayRepeat_expand_twice (pattern : Pattern Atom) (target : Atom) :
    ((pattern.expand catalog).expand catalog).mayRepeat target = true ↔
      (pattern.expand catalog).mayRepeat target = true ∨
        1 < (catalog.group target).toList.length ∧
          (pattern.expand catalog).InSequence target := by
  have counts := fun atom => count_leaves_spellings_twice consistent options atom target
  have once := fun atom => mayRepeat_spellings catalog atom target
  have still := fun atom => mayRepeat_spellings_twice catalog atom target
  have apart : ∀ atom, ¬ (catalog.spellings atom).InSequence target := by
    intro atom
    rw [spellings_eq_choice]
    exact Pattern.not_inSequence_choice_leaf target _
  rw [Pattern.expand, Pattern.expand, Pattern.bind_bind]
  exact Pattern.mayRepeat_bind_mul (length_group_pos catalog target) counts once still apart pattern

end Twice

end Catalog

namespace Interface

open Catalog (verboseCatalog)

/-- Assembling an interface again only adds to what may repeat. With a consistent catalog of
options, the same atoms have entries, with the same synonyms, the same value that stands in and the
same word on whether a value follows. An atom may repeat if it could before, and besides exactly if
it is an option with several synonyms that stands in a sequence of the assembled pattern. -/
theorem entry?_assemble_again (pattern : Pattern Atom) {catalog : Catalog}
    (consistent : catalog.Consistent) (options : catalog.OptionsOnly) :
    let first := assemble pattern catalog
    let again := assemble first.pattern first.catalog
    ∀ atom, again.entry? atom = (first.entry? atom).map fun entry =>
      { entry with
        repeatable := entry.repeatable || decide (atom.isOption = true ∧
          1 < entry.synonyms.toList.length ∧ first.pattern.InSequence atom) } := by
  intro first again atom
  have leaves := Catalog.mem_leaves_expand_twice consistent options pattern atom
  have repeats := Catalog.mayRepeat_expand_twice consistent options pattern atom
  have expanded : again.pattern = (pattern.expand catalog).expand catalog :=
    Catalog.expand_recordRepeats catalog _ _
  have recorded : again.entry? atom = if atom ∈ again.pattern.leaves then
      some { (first.entry? atom).getD .blank with repeatable := again.pattern.mayRepeat atom }
      else first.entry? atom := Catalog.find?_recordRepeats first.catalog again.pattern atom
  rw [recorded, expanded]
  by_cases leaf : atom ∈ first.pattern.leaves
  · obtain ⟨entry, found, flag⟩ := find?_assemble_of_leaf leaf
    have synonyms : entry.synonyms = catalog.synonymsOf atom := by
      rw [← Catalog.synonymsOf_eq found]
      exact Catalog.synonymsOf_recordRepeats catalog first.pattern atom
    have repeatable : ((pattern.expand catalog).expand catalog).mayRepeat atom =
        (entry.repeatable || decide (atom.isOption = true ∧
          1 < entry.synonyms.toList.length ∧ first.pattern.InSequence atom)) := by
      rw [Bool.eq_iff_iff, repeats, Catalog.one_lt_group_iff, Bool.or_eq_true, decide_eq_true_eq,
        flag, synonyms, and_assoc]
      rfl
    have known : first.entry? atom = some entry := found
    rw [if_pos (leaves.2 leaf), known, repeatable]
    rfl
  · have outside : ¬ first.pattern.InSequence atom := fun inside => leaf inside.mem_leaves
    rw [if_neg fun mem => leaf (leaves.1 mem)]
    cases first.entry? atom with
    | none => rfl
    | some entry => simp [outside]

/-- An option before a command. -/
def verboseRun : Pattern Atom := .seq [.leaf (.short 'v'), .leaf (.command "run")]

/-- A run mentions its option once, in either spelling. After assembling again the option may repeat
in both, while the command still may not. -/
theorem entry?_assemble_again_verbose :
    let first := assemble verboseRun verboseCatalog
    let again := assemble first.pattern first.catalog
    verboseCatalog.Consistent ∧ verboseCatalog.OptionsOnly ∧
      first.entry? (.long "verbose") = some Catalog.verboseEntry ∧
      again.entry? (.long "verbose") = some { Catalog.verboseEntry with repeatable := true } ∧
      again.entry? (.command "run") = first.entry? (.command "run") := by
  intro first again
  have consistent : verboseCatalog.Consistent := by decide +kernel
  have options : verboseCatalog.OptionsOnly := by decide +kernel
  have entries := entry?_assemble_again verboseRun consistent options
  have long : first.entry? (.long "verbose") = some Catalog.verboseEntry := by decide +kernel
  refine ⟨consistent, options, long, ?_, ?_⟩
  · refine (entries (.long "verbose")).trans ?_
    decide +kernel
  · refine (entries (.command "run")).trans ?_
    decide +kernel

/-- Assembling an assembled interface again does not leave all entries as they are. -/
theorem assemble_again_changes :
    ¬ ∀ (pattern : Pattern Atom) (catalog : Catalog), catalog.Consistent →
      (∀ row ∈ catalog.toList, row.1.isOption = true) → catalog.OptionsOnly →
      let first := assemble pattern catalog
      (assemble first.pattern first.catalog).catalog = first.catalog := by
  intro unchanged
  have differs :
      let first := assemble verboseRun verboseCatalog
      (assemble first.pattern first.catalog).catalog ≠ first.catalog := by decide +kernel
  exact differs (unchanged verboseRun verboseCatalog (by decide +kernel) (by decide +kernel)
    (by decide +kernel))

end Interface

end Synopsis

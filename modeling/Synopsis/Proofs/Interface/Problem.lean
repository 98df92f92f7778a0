import Synopsis.Interface.Problem
import Synopsis.Proofs.Interface
import Synopsis.Proofs.List

/-!
# Interfaces without problems

An interface has no problems exactly when its pattern is flat, every leaf has an entry and the
catalog is consistent. Of an assembled interface only its synonyms can be a problem.
-/
namespace Synopsis.Interface

/-- A synonym is no problem exactly when it has an entry with the same synonyms. -/
theorem synonymProblem_eq_none {catalog : Catalog} {key synonym : Atom} {entry : Entry} :
    synonymProblem catalog key entry synonym = none ↔
      ∃ other, catalog.find? synonym = some other ∧ other.synonyms = entry.synonyms := by
  rw [synonymProblem]
  cases catalog.find? synonym with
  | none => simp only [reduceCtorEq, false_and, exists_false]
  | some other =>
    simp only [Option.some.injEq, exists_eq_left']
    split
    · next same => simp only [same]
    · next differ => split <;> simp only [differ, reduceCtorEq]

/-- The synonyms are no problem exactly when the catalog is consistent. -/
theorem synonymProblems_eq_nil {catalog : Catalog} :
    synonymProblems catalog = [] ↔ catalog.Consistent := by
  simp only [synonymProblems, List.flatMap_eq_nil_iff, List.filterMap_eq_nil_iff, Prod.forall,
    AtomMap.mem_toList_iff, synonymProblem_eq_none, AtomSet.mem_toList, Catalog.Consistent]

instance (catalog : Catalog) : Decidable catalog.Consistent :=
  decidable_of_iff _ synonymProblems_eq_nil

/-- An interface without problems is flat, complete and consistent, and no other interface is. -/
theorem problems_eq_nil {interface : Interface} :
    interface.problems = [] ↔
      interface.pattern.Flat ∧
      (∀ atom ∈ interface.pattern.leaves, ∃ entry, interface.catalog.find? atom = some entry) ∧
      interface.catalog.Consistent := by
  rw [problems, List.append_eq_nil_iff, List.append_eq_nil_iff, List.map_eq_nil_iff,
    List.map_eq_nil_iff, eraseDups_eq_nil, eraseDups_eq_nil, Pattern.soleChildren_eq_nil,
    synonymProblems_eq_nil, List.filter_eq_nil_iff, and_assoc]
  simp only [Bool.not_eq_true', Bool.not_eq_false, AtomMap.contains_iff]

/-- The problems of synonyms are about two atoms. -/
theorem cases_of_mem_synonymProblems {catalog : Catalog} {problem : Problem}
    (mem : problem ∈ synonymProblems catalog) :
    (∃ key synonym, problem = .noSynonymEntry key synonym) ∨
      ∃ first second, problem = .unequalSynonyms first second := by
  obtain ⟨⟨key, entry⟩, -, found⟩ := List.mem_flatMap.1 mem
  obtain ⟨synonym, -, wrong⟩ := List.mem_filterMap.1 found
  rw [synonymProblem] at wrong
  split at wrong
  · exact .inl ⟨key, synonym, (Option.some.inj wrong).symm⟩
  · split at wrong
    · contradiction
    · split at wrong
      · exact .inr ⟨key, synonym, (Option.some.inj wrong).symm⟩
      · exact .inr ⟨synonym, key, (Option.some.inj wrong).symm⟩

/-- A group with a single child is a problem exactly where it is one of the pattern. -/
theorem soleChild_mem_problems {interface : Interface} {group : Pattern Atom} :
    .soleChild group ∈ interface.problems ↔ group ∈ interface.pattern.soleChildren := by
  have absent : .soleChild group ∉ synonymProblems interface.catalog := by
    intro mem
    rcases cases_of_mem_synonymProblems mem with ⟨_, _, other⟩ | ⟨_, _, other⟩ <;> cases other
  rw [problems, List.mem_append, List.mem_append, List.mem_eraseDups, or_iff_left absent]
  simp [List.mem_eraseDups]

/-- That an atom has no entry is a problem exactly where it is a leaf. -/
theorem noEntry_mem_problems {interface : Interface} {atom : Atom} :
    .noEntry atom ∈ interface.problems ↔
      atom ∈ interface.pattern.leaves ∧ interface.catalog.find? atom = none := by
  have absent : .noEntry atom ∉ synonymProblems interface.catalog := by
    intro mem
    rcases cases_of_mem_synonymProblems mem with ⟨_, _, other⟩ | ⟨_, _, other⟩ <;> cases other
  rw [problems, List.mem_append, List.mem_append, List.mem_eraseDups, or_iff_left absent]
  simp [List.mem_eraseDups, AtomMap.contains]

/-- Where every listed synonym has an entry, synonyms can only differ. -/
theorem unequal_of_synonymProblem {catalog : Catalog} (closed : catalog.Closed) {problem : Problem}
    (mem : problem ∈ synonymProblems catalog) :
    ∃ first second, problem = .unequalSynonyms first second := by
  obtain ⟨⟨key, entry⟩, listed, found⟩ := List.mem_flatMap.1 mem
  obtain ⟨synonym, among, wrong⟩ := List.mem_filterMap.1 found
  obtain ⟨other, known⟩ := closed key entry (AtomMap.mem_toList_iff.1 listed) synonym among
  rw [synonymProblem, known] at wrong
  dsimp only at wrong
  split at wrong
  · contradiction
  · split at wrong
    · exact ⟨key, synonym, (Option.some.inj wrong).symm⟩
    · exact ⟨synonym, key, (Option.some.inj wrong).symm⟩

/-- The problems of an interface that is assembled from a flat pattern and a catalog with an entry
for every listed synonym are differing synonyms. -/
theorem unequal_of_mem_problems_assemble {pattern : Pattern Atom} {catalog : Catalog}
    (flat : pattern.Flat) (closed : catalog.Closed) :
    ∀ problem ∈ (assemble pattern catalog).problems,
      ∃ first second, problem = .unequalSynonyms first second := by
  intro problem mem
  rw [problems, Pattern.soleChildren_eq_nil.2 (flat_assemble flat catalog)] at mem
  have covered : ((assemble pattern catalog).pattern.leaves.filter fun atom =>
      !(assemble pattern catalog).catalog.contains atom) = [] := by
    refine List.filter_eq_nil_iff.2 fun atom leaf => ?_
    rw [Bool.not_eq_true', Bool.not_eq_false, AtomMap.contains_iff]
    obtain ⟨entry, found, -⟩ := find?_assemble_of_leaf leaf
    exact ⟨entry, found⟩
  rw [covered] at mem
  have among : problem ∈ (synonymProblems (assemble pattern catalog).catalog).eraseDups := mem
  exact unequal_of_synonymProblem (Catalog.closed_recordRepeats _ closed)
    (List.mem_eraseDups.1 among)

/-- An interface that is assembled from a flat pattern has no problems exactly when the catalog
that it is assembled from is consistent. -/
theorem problems_assemble_eq_nil {pattern : Pattern Atom} {catalog : Catalog}
    (flat : pattern.Flat) :
    (assemble pattern catalog).problems = [] ↔ catalog.Consistent := by
  rw [problems_eq_nil]
  constructor
  · rintro ⟨-, -, consistent⟩
    exact Catalog.consistent_recordRepeats.1 consistent
  · intro consistent
    refine ⟨flat_assemble flat catalog, fun atom leaf => ?_,
      Catalog.consistent_recordRepeats.2 consistent⟩
    obtain ⟨entry, found, -⟩ := find?_assemble_of_leaf leaf
    exact ⟨entry, found⟩

end Synopsis.Interface

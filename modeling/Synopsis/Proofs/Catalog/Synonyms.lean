import Synopsis.Proofs.Atom.Set
import Synopsis.Proofs.Catalog
import Synopsis.Proofs.Pattern.Flat
import Synopsis.Proofs.Pattern.Replacement

/-!
# Groups of synonyms

In a consistent catalog the synonyms of an atom all list the same synonyms. Whether a catalog is
consistent does not depend on what is recorded about repetition. A pattern that is expanded has
for every atom the group of atoms that stand for it; with a consistent catalog, the members of a
group have the same group, and all synonyms of an option occur alike.
-/
namespace Synopsis.Catalog

/-- The synonyms listed for an atom; none if it has no entry. -/
def synonymsOf (catalog : Catalog) (atom : Atom) : AtomSet :=
  ((catalog.find? atom).getD .blank).synonyms

/-- Every listed synonym has an entry. -/
def Closed (catalog : Catalog) : Prop :=
  ∀ key entry, catalog.find? key = some entry →
    ∀ synonym ∈ entry.synonyms, ∃ other, catalog.find? synonym = some other

/-- Every listed synonym has an entry with the same synonyms. -/
def Consistent (catalog : Catalog) : Prop :=
  ∀ key entry, catalog.find? key = some entry →
    ∀ synonym ∈ entry.synonyms,
      ∃ other, catalog.find? synonym = some other ∧ other.synonyms = entry.synonyms

/-- Every listed synonym is an option. -/
def OptionsOnly (catalog : Catalog) : Prop :=
  ∀ key, ∀ synonym ∈ catalog.synonymsOf key, synonym.isOption = true

/-- The synonyms of an atom with an entry are those in the entry. -/
theorem synonymsOf_eq {catalog : Catalog} {atom : Atom} {entry : Entry}
    (found : catalog.find? atom = some entry) : catalog.synonymsOf atom = entry.synonyms := by
  rw [synonymsOf, found, Option.getD_some]

/-- An atom with synonyms has an entry, which lists them. -/
theorem find?_of_mem_synonymsOf {catalog : Catalog} {atom synonym : Atom}
    (listed : synonym ∈ catalog.synonymsOf atom) :
    ∃ entry, catalog.find? atom = some entry ∧ entry.synonyms = catalog.synonymsOf atom := by
  cases found : catalog.find? atom with
  | none =>
    rw [synonymsOf, found] at listed
    exact absurd listed List.not_mem_nil
  | some entry => exact ⟨entry, rfl, (synonymsOf_eq found).symm⟩

/-- The listing of a catalog shows whether it lists options only. -/
theorem optionsOnly_iff {catalog : Catalog} :
    catalog.OptionsOnly ↔
      ∀ row ∈ catalog.toList, ∀ synonym ∈ row.2.synonyms.toList, synonym.isOption = true := by
  constructor
  · rintro options ⟨key, entry⟩ mem synonym listed
    refine options key synonym ?_
    rw [synonymsOf_eq (AtomMap.mem_toList_iff.1 mem)]
    exact listed
  · intro every key synonym listed
    obtain ⟨entry, found, same⟩ := find?_of_mem_synonymsOf listed
    rw [← same] at listed
    exact every (key, entry) (AtomMap.mem_toList_iff.2 found) synonym listed

instance (catalog : Catalog) : Decidable catalog.OptionsOnly := decidable_of_iff' _ optionsOnly_iff

/-- A catalog is consistent when the synonyms of an atom have its synonyms. -/
theorem consistent_iff {catalog : Catalog} :
    catalog.Consistent ↔ ∀ key, ∀ synonym ∈ catalog.synonymsOf key,
      catalog.synonymsOf synonym = catalog.synonymsOf key := by
  constructor
  · intro consistent key synonym listed
    obtain ⟨entry, found, same⟩ := find?_of_mem_synonymsOf listed
    rw [← same] at listed ⊢
    obtain ⟨other, known, equal⟩ := consistent key entry found synonym listed
    rw [synonymsOf_eq known, equal]
  · intro equal key entry found synonym listed
    rw [← synonymsOf_eq found] at listed ⊢
    have same := equal key synonym listed
    rw [← same] at listed
    obtain ⟨other, known, synonyms⟩ := find?_of_mem_synonymsOf listed
    exact ⟨other, known, synonyms.trans same⟩

/-- Recording repetition keeps the synonyms of every atom. -/
theorem synonymsOf_recordRepeats (catalog : Catalog) (pattern : Pattern Atom) (atom : Atom) :
    (catalog.recordRepeats pattern).synonymsOf atom = catalog.synonymsOf atom := by
  rw [synonymsOf, synonymsOf, find?_recordRepeats]
  split <;> rfl

/-- Recording repetition makes no catalog consistent or inconsistent. -/
theorem consistent_recordRepeats {catalog : Catalog} {pattern : Pattern Atom} :
    (catalog.recordRepeats pattern).Consistent ↔ catalog.Consistent := by
  rw [consistent_iff, consistent_iff]
  simp only [synonymsOf_recordRepeats]

/-- Recording repetition keeps the entries of all listed synonyms. -/
theorem closed_recordRepeats {catalog : Catalog} (pattern : Pattern Atom)
    (closed : catalog.Closed) : (catalog.recordRepeats pattern).Closed := by
  intro key entry found synonym listed
  rw [← synonymsOf_eq found, synonymsOf_recordRepeats] at listed
  obtain ⟨before, known, same⟩ := find?_of_mem_synonymsOf listed
  rw [← same] at listed
  obtain ⟨other, present⟩ := closed key before known synonym listed
  rw [find?_recordRepeats, present]
  split
  · exact ⟨_, rfl⟩
  · exact ⟨other, rfl⟩

/-- The atoms that an atom is expanded to: all synonyms of an option that has some, and any other
atom itself. -/
def group (catalog : Catalog) (atom : Atom) : AtomSet :=
  if atom.isOption && !(catalog.synonymsOf atom).isEmpty then catalog.synonymsOf atom
  else .ofList [atom]

/-- A group is that of an option with synonyms, or of a single atom. -/
theorem group_cases (catalog : Catalog) (atom : Atom) :
    (atom.isOption = true ∧ (∃ synonym, synonym ∈ catalog.synonymsOf atom) ∧
      catalog.group atom = catalog.synonymsOf atom) ∨ catalog.group atom = .ofList [atom] := by
  rw [group]
  split
  · next described =>
    rw [Bool.and_eq_true, Bool.not_eq_true', ← Bool.not_eq_true, AtomSet.isEmpty_iff] at described
    exact .inl ⟨described.1, Classical.not_forall_not.1 described.2, rfl⟩
  · exact .inr rfl

/-- The group of an option with synonyms holds these. -/
theorem group_eq_synonymsOf {catalog : Catalog} {atom synonym : Atom}
    (option : atom.isOption = true) (listed : synonym ∈ catalog.synonymsOf atom) :
    catalog.group atom = catalog.synonymsOf atom := by
  have filled : (catalog.synonymsOf atom).isEmpty = false := by
    refine Bool.eq_false_iff.2 fun empty => ?_
    exact AtomSet.isEmpty_iff.1 empty synonym listed
  rw [group, option, filled]
  rfl

/-- No group is empty. -/
theorem exists_mem_group (catalog : Catalog) (atom : Atom) :
    ∃ spelling, spelling ∈ catalog.group atom := by
  rcases group_cases catalog atom with ⟨-, filled, same⟩ | same <;> rw [same]
  · exact filled
  · exact ⟨atom, AtomSet.mem_ofList.2 List.mem_cons_self⟩

/-- An atom is expanded to the choice of its group. -/
theorem spellings_eq_choice (catalog : Catalog) (atom : Atom) :
    catalog.spellings atom = .choice ((catalog.group atom).toList.map .leaf) := by
  have alone : Pattern.leaf atom = .choice ((AtomSet.ofList [atom]).toList.map .leaf) := rfl
  rw [spellings, group, synonymsOf]
  by_cases option : atom.isOption = true
  · rw [if_pos option, option, Bool.true_and]
    cases catalog.find? atom with
    | none => exact alone
    | some entry =>
      dsimp only
      rw [Option.getD_some]
      by_cases empty : entry.synonyms.isEmpty = true
      · rw [if_pos empty, if_neg (by rw [empty]; decide)]
        exact alone
      · rw [if_neg empty, if_pos (by rw [Bool.eq_false_iff.2 empty]; rfl)]
  · rw [if_neg option, Bool.eq_false_iff.2 option]
    exact alone

/-- What an atom is expanded to is flat. -/
theorem flat_spellings (catalog : Catalog) (atom : Atom) : (catalog.spellings atom).Flat := by
  rw [spellings_eq_choice]
  refine Pattern.flat_choice (List.forall_mem_map.2 fun synonym _ => ?_)
  exact Pattern.flat_leaf synonym

/-- The leaves that an atom is expanded to are its group. -/
theorem leaves_spellings (catalog : Catalog) (atom : Atom) :
    (catalog.spellings atom).leaves = (catalog.group atom).toList := by
  rw [spellings_eq_choice, Pattern.leaves_choice_leaf]

/-- No leaf may repeat in what an atom is expanded to. -/
theorem mayRepeat_spellings (catalog : Catalog) (atom target : Atom) :
    (catalog.spellings atom).mayRepeat target = false := by
  rw [spellings_eq_choice, Pattern.mayRepeat_choice_leaf]

/-- A spelling occurs once in what an atom is expanded to if it is in the group of the atom. -/
theorem count_leaves_spellings (catalog : Catalog) (atom spelling : Atom) :
    (catalog.spellings atom).leaves.count spelling =
      if spelling ∈ catalog.group atom then 1 else 0 := by
  rw [leaves_spellings, AtomSet.count_toList]

section Expansion

variable {catalog : Catalog} (consistent : catalog.Consistent) (options : catalog.OptionsOnly)

include consistent options

/-- All members of a group have this group. -/
theorem group_eq_of_mem {atom spelling : Atom} (mem : spelling ∈ catalog.group atom) :
    catalog.group spelling = catalog.group atom := by
  rcases group_cases catalog atom with ⟨-, -, same⟩ | same
  · rw [same] at mem ⊢
    have equal := consistent_iff.1 consistent atom spelling mem
    have own : spelling ∈ catalog.synonymsOf spelling := by rwa [equal]
    rw [group_eq_synonymsOf (options atom spelling mem) own, equal]
  · rw [same] at mem
    rw [List.mem_singleton.1 (AtomSet.mem_ofList.1 mem)]

/-- Every member of a group is in its own group. -/
theorem mem_own_group {atom spelling : Atom} (mem : spelling ∈ catalog.group atom) :
    spelling ∈ catalog.group spelling := by
  rwa [group_eq_of_mem consistent options mem]

/-- A listed synonym of an atom has the synonyms of the atom as its group. -/
theorem group_synonym {key synonym : Atom} (listed : synonym ∈ catalog.synonymsOf key) :
    catalog.group synonym = catalog.synonymsOf key := by
  have equal := consistent_iff.1 consistent key synonym listed
  have own : synonym ∈ catalog.synonymsOf synonym := by rwa [equal]
  rw [group_eq_synonymsOf (options key synonym listed) own, equal]

/-- Two synonyms are in the same groups. -/
theorem mem_group_synonym {key first second : Atom} (inFirst : first ∈ catalog.synonymsOf key)
    (inSecond : second ∈ catalog.synonymsOf key) (atom : Atom) :
    first ∈ catalog.group atom ↔ second ∈ catalog.group atom := by
  have one := group_synonym consistent options inFirst
  have other := group_synonym consistent options inSecond
  constructor
  · intro mem
    rwa [← group_eq_of_mem consistent options mem, one]
  · intro mem
    rwa [← group_eq_of_mem consistent options mem, other]

section Synonyms

variable {key first second : Atom} (inFirst : first ∈ catalog.synonymsOf key)
  (inSecond : second ∈ catalog.synonymsOf key)

include inFirst inSecond

/-- Two synonyms are leaves of an expanded pattern alike. -/
theorem mem_leaves_expand (pattern : Pattern Atom) :
    first ∈ (pattern.expand catalog).leaves ↔ second ∈ (pattern.expand catalog).leaves := by
  simp only [Pattern.expand, Pattern.leaves_bind, leaves_spellings, List.mem_flatMap,
    AtomSet.mem_toList, mem_group_synonym consistent options inFirst inSecond]

/-- Two synonyms may repeat in an expanded pattern alike. -/
theorem mayRepeat_expand (pattern : Pattern Atom) :
    (pattern.expand catalog).mayRepeat first = (pattern.expand catalog).mayRepeat second := by
  refine Pattern.mayRepeat_bind (fun atom => ?_) (fun atom => ?_) pattern
  · rw [count_leaves_spellings, count_leaves_spellings]
    simp only [mem_group_synonym consistent options inFirst inSecond]
  · rw [mayRepeat_spellings, mayRepeat_spellings]

/-- Two synonyms of which the same is known before are known alike after recording what may repeat
in an expanded pattern. -/
theorem find?_recordRepeats_expand (pattern : Pattern Atom)
    (same : catalog.find? first = catalog.find? second) :
    (catalog.recordRepeats (pattern.expand catalog)).find? first =
      (catalog.recordRepeats (pattern.expand catalog)).find? second := by
  rw [find?_recordRepeats, find?_recordRepeats, same,
    mayRepeat_expand consistent options inFirst inSecond]
  simp only [mem_leaves_expand consistent options inFirst inSecond]

end Synonyms

end Expansion

/-- What is known about an option with two spellings. -/
def verboseEntry : Entry := { Entry.blank with synonyms := .ofList [.short 'v', .long "verbose"] }

/-- A catalog with both spellings of the option. -/
def verboseCatalog : Catalog :=
  .ofList [(.short 'v', verboseEntry), (.long "verbose", verboseEntry)]

end Synopsis.Catalog

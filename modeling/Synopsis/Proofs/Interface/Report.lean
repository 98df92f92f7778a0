import Synopsis.Proofs.Catalog.Synonyms
import Synopsis.Proofs.Interface.Problem

/-!
# The report of problems

The problems of an interface are what one finds by going once over the nodes and the leaves of its
pattern and over the synonyms that its catalog lists, with a single list to which a leaf or a pair
of atoms is only added where it is not in it. So every violation is reported, each in one place,
and nothing else is.
-/
namespace Synopsis

namespace Catalog

/-- Every listed synonym behind the key whose entry lists it, by keys and then by synonyms. -/
def listings (catalog : Catalog) : List (Atom × Atom) :=
  catalog.toList.flatMap fun (key, entry) => entry.synonyms.toList.map (key, ·)

/-- A synonym is listed behind each atom that has it. -/
theorem mem_listings {catalog : Catalog} {key synonym : Atom} :
    (key, synonym) ∈ catalog.listings ↔
      ∃ entry, catalog.find? key = some entry ∧ synonym ∈ entry.synonyms := by
  simp only [listings, List.mem_flatMap, List.mem_map, Prod.exists, Prod.mk.injEq,
    AtomMap.mem_toList_iff, AtomSet.mem_toList]
  constructor
  · rintro ⟨_, entry, found, _, listed, rfl, rfl⟩
    exact ⟨entry, found, listed⟩
  · rintro ⟨entry, found, listed⟩
    exact ⟨key, entry, found, synonym, listed, rfl, rfl⟩

/-- The listed synonyms come in the order of their keys, and behind one key in their own. -/
theorem listings_ordered (catalog : Catalog) :
    catalog.listings.Pairwise fun first second =>
      first.1 < second.1 ∨ first.1 = second.1 ∧ first.2 < second.2 := by
  refine List.pairwise_flatMap.2 ⟨fun row _ => ?_, ?_⟩
  · refine List.pairwise_map.2 (row.2.synonyms.ordered.imp fun before => ?_)
    exact .inr ⟨rfl, before⟩
  · refine catalog.ordered.imp fun before one among other also => ?_
    obtain ⟨_, -, rfl⟩ := List.mem_map.1 among
    obtain ⟨_, -, rfl⟩ := List.mem_map.1 also
    exact .inl before

/-- No synonym is listed twice behind one key. -/
theorem nodup_listings (catalog : Catalog) : catalog.listings.Nodup := by
  refine catalog.listings_ordered.imp fun {first second} before same => ?_
  subst same
  rcases before with less | ⟨-, less⟩ <;> exact Atom.lt_irrefl _ less

/-- What is wrong with the synonyms in a catalog. -/
inductive Wrong (catalog : Catalog) : Problem → Prop where
  /-- A listed synonym has no entry. -/
  | missing {key synonym : Atom} {entry : Entry} (known : catalog.find? key = some entry)
      (listed : synonym ∈ entry.synonyms) (unknown : catalog.find? synonym = none) :
      Wrong catalog (.noSynonymEntry key synonym)
  /-- Of two atoms with entries at least one lists the other, and their synonyms differ. -/
  | unequal {first second : Atom} {one other : Entry} (before : first < second)
      (known : catalog.find? first = some one) (also : catalog.find? second = some other)
      (listed : second ∈ one.synonyms ∨ first ∈ other.synonyms)
      (differ : one.synonyms ≠ other.synonyms) : Wrong catalog (.unequalSynonyms first second)

end Catalog

namespace Problem

/-- Whether a problem is about a synonym behind a key. That synonyms differ is about both atoms,
behind each other. -/
def concerns : Problem → Atom × Atom → Bool
  | .noSynonymEntry key synonym, row => row = (key, synonym)
  | .unequalSynonyms first second, row => row = (first, second) || row = (second, first)
  | _, _ => false

/-- The problems found so far, and one more unless it is among them. -/
def addTo (found : List Problem) (problem : Problem) : List Problem :=
  if problem ∈ found then found else found ++ [problem]

/-- A new problem is added to those that come after the ones found before unless it is among
them. -/
theorem addTo_append {found : List Problem} {problem : Problem} (new : problem ∉ found)
    (later : List Problem) :
    addTo (found ++ later.eraseDups) problem = found ++ (later ++ [problem]).eraseDups := by
  have there : problem ∈ found ++ later.eraseDups ↔ problem ∈ later := by
    rw [List.mem_append, List.mem_eraseDups, or_iff_right new]
  rw [addTo, eraseDups_concat]
  simp only [there]
  split
  · rfl
  · rw [List.append_assoc]

end Problem

namespace Interface

/-- What is wrong with a listed synonym behind its key. -/
def problemAt (catalog : Catalog) (row : Atom × Atom) : Option Problem :=
  (catalog.find? row.1).bind fun entry => synonymProblem catalog row.1 entry row.2

/-- The problems of synonyms are those of the listed synonyms, one by one. -/
theorem synonymProblems_eq (catalog : Catalog) :
    synonymProblems catalog = catalog.listings.filterMap (problemAt catalog) := by
  rw [synonymProblems, Catalog.listings, List.filterMap_flatMap]
  refine List.flatMap_congr fun row mem => ?_
  have found : catalog.find? row.1 = some row.2 := AtomMap.mem_toList_iff.1 mem
  rw [List.filterMap_map]
  refine List.filterMap_congr fun synonym _ => ?_
  rw [Function.comp_apply, problemAt, found, Option.bind_some]

/-- What is wrong with a listed synonym is about it. -/
theorem wrong_of_problemAt {catalog : Catalog} {row : Atom × Atom} {problem : Problem}
    (listed : row ∈ catalog.listings) (given : problemAt catalog row = some problem) :
    catalog.Wrong problem ∧ problem.concerns row = true := by
  obtain ⟨key, synonym⟩ := row
  obtain ⟨entry, known, among⟩ := Catalog.mem_listings.1 listed
  rw [problemAt, known, Option.bind_some, synonymProblem] at given
  cases found : catalog.find? synonym with
  | none =>
    rw [found] at given
    obtain rfl := Option.some.inj given
    exact ⟨.missing known among found, by simp [Problem.concerns]⟩
  | some other =>
    rw [found] at given
    dsimp only at given
    split at given
    · contradiction
    · next differ =>
      split at given
      · next before =>
        obtain rfl := Option.some.inj given
        exact ⟨.unequal before known found (.inl among) (Ne.symm differ), by
          simp [Problem.concerns]⟩
      · next after =>
        obtain rfl := Option.some.inj given
        have distinct : key ≠ synonym := by
          rintro rfl
          rw [known] at found
          exact differ (congrArg Entry.synonyms (Option.some.inj found)).symm
        exact ⟨.unequal (Atom.lt_of_not_lt distinct after) found known (.inr among) differ, by
          simp [Problem.concerns]⟩

/-- What is wrong and about a listed synonym is found at it. -/
theorem problemAt_of_wrong {catalog : Catalog} {row : Atom × Atom} {problem : Problem}
    (wrong : catalog.Wrong problem) (about : problem.concerns row = true) :
    problemAt catalog row = some problem := by
  cases wrong with
  | missing known listed unknown =>
    obtain rfl : row = _ := by simpa only [Problem.concerns, decide_eq_true_eq] using about
    simp only [problemAt, known, Option.bind_some, synonymProblem, unknown]
  | @unequal first second _ _ before one other listed differ =>
    have either : row = (first, second) ∨ row = (second, first) := by
      simpa only [Problem.concerns, Bool.or_eq_true, decide_eq_true_eq] using about
    rcases either with rfl | rfl
    · simp only [problemAt, one, Option.bind_some, synonymProblem, other, if_neg differ.symm,
        if_pos before]
    · have after := fun less => Atom.lt_irrefl _ (Atom.lt_trans before less)
      simp only [problemAt, other, Option.bind_some, synonymProblem, one, if_neg differ,
        if_neg after]

/-- At the listed synonyms one finds everything that is wrong with the synonyms, and nothing
else. -/
theorem mem_filterMap_problemAt {catalog : Catalog} {problem : Problem} :
    problem ∈ catalog.listings.filterMap (problemAt catalog) ↔ catalog.Wrong problem := by
  rw [List.mem_filterMap]
  constructor
  · rintro ⟨row, listed, given⟩
    exact (wrong_of_problemAt listed given).1
  · intro wrong
    have place : ∃ row ∈ catalog.listings, problem.concerns row = true := by
      cases wrong with
      | @missing key synonym entry known listed unknown =>
        exact ⟨(key, synonym), Catalog.mem_listings.2 ⟨entry, known, listed⟩, by
          simp [Problem.concerns]⟩
      | @unequal first second one other before known also listed differ =>
        rcases listed with forth | back
        · exact ⟨(first, second), Catalog.mem_listings.2 ⟨one, known, forth⟩, by
            simp [Problem.concerns]⟩
        · exact ⟨(second, first), Catalog.mem_listings.2 ⟨other, also, back⟩, by
            simp [Problem.concerns]⟩
    obtain ⟨row, listed, about⟩ := place
    exact ⟨row, listed, problemAt_of_wrong wrong about⟩

/-- A listed synonym gives exactly those of the problems that are about it. -/
theorem concerns_iff_problemAt {catalog : Catalog} {row : Atom × Atom} {problem : Problem}
    (listed : row ∈ catalog.listings) (wrong : catalog.Wrong problem) :
    problem.concerns row = true ↔ problemAt catalog row = some problem :=
  ⟨problemAt_of_wrong wrong, fun given => (wrong_of_problemAt listed given).2⟩

/-- The problems found so far, after one more leaf. -/
def visitLeaf (catalog : Catalog) (found : List Problem) (atom : Atom) : List Problem :=
  if catalog.contains atom then found else Problem.addTo found (.noEntry atom)

/-- The problems found so far, after one more synonym in the entry of a key. That it has no entry
is added as it is, since no synonym is listed twice behind one key. -/
def visitSynonym (catalog : Catalog) (key : Atom) (entry : Entry) (found : List Problem)
    (synonym : Atom) : List Problem :=
  match catalog.find? synonym with
  | none => found ++ [.noSynonymEntry key synonym]
  | some other =>
    if other.synonyms = entry.synonyms then found
    else if key < synonym then Problem.addTo found (.unequalSynonyms key synonym)
    else Problem.addTo found (.unequalSynonyms synonym key)

/-- The problems that one pass over the groups, the leaves and the listed synonyms gathers in a
single list. -/
def gather (interface : Interface) : List Problem :=
  let groups := interface.pattern.soleChildren.map .soleChild
  let leaves := interface.pattern.leaves.foldl (visitLeaf interface.catalog) groups
  interface.catalog.toList.foldl (fun found (key, entry) =>
    entry.synonyms.toList.foldl (visitSynonym interface.catalog key entry) found) leaves

/-- The visits of leaves add those without an entry, each once. -/
theorem foldl_visitLeaf (catalog : Catalog) {found : List Problem}
    (others : ∀ atom, .noEntry atom ∉ found) (leaves : List Atom) :
    leaves.foldl (visitLeaf catalog) found =
      found ++ ((leaves.filter fun atom => !catalog.contains atom).map .noEntry).eraseDups := by
  induction leaves using List.reverseRecOn with
  | nil => simp
  | append_singleton leaves last ih =>
    rw [List.foldl_concat, ih, visitLeaf, List.filter_append, List.map_append]
    cases known : catalog.contains last with
    | true => simp [known]
    | false =>
      have single : [last].filter (fun atom => !catalog.contains atom) = [last] := by simp [known]
      rw [if_neg Bool.false_ne_true, single, List.map_singleton]
      exact Problem.addTo_append (others last) _

/-- The problems found so far, after one more listed synonym. -/
def visitRow (catalog : Catalog) (found : List Problem) (row : Atom × Atom) : List Problem :=
  match catalog.find? row.1 with
  | none => found
  | some entry => visitSynonym catalog row.1 entry found row.2

/-- Visiting the synonyms key by key visits the rows in which they are listed. -/
theorem foldl_listings (catalog : Catalog) (found : List Problem) :
    catalog.toList.foldl (fun found (key, entry) =>
      entry.synonyms.toList.foldl (visitSynonym catalog key entry) found) found =
      catalog.listings.foldl (visitRow catalog) found := by
  rw [Catalog.listings, List.foldl_flatMap]
  refine List.foldl_ext _ _ _ fun found row mem => ?_
  have known : catalog.find? row.1 = some row.2 := AtomMap.mem_toList_iff.1 mem
  rw [List.foldl_map]
  refine List.foldl_ext _ _ _ fun found synonym _ => ?_
  rw [visitRow, known]

/-- A visit of a listed synonym adds what is wrong with it, unless it is there. That it has no entry
is added without a look at what is there, so it must not be. -/
theorem visitRow_eq {catalog : Catalog} {found : List Problem} {row : Atom × Atom}
    (first : .noSynonymEntry row.1 row.2 ∉ found) :
    visitRow catalog found row =
      match problemAt catalog row with
      | none => found
      | some problem => Problem.addTo found problem := by
  rw [visitRow, problemAt]
  cases catalog.find? row.1 with
  | none => rfl
  | some entry =>
    dsimp only
    rw [visitSynonym, Option.bind_some, synonymProblem]
    cases catalog.find? row.2 with
    | none => exact (if_neg first).symm
    | some other =>
      dsimp only
      split
      · rfl
      · split <;> rfl

/-- The visits of listed synonyms add what is wrong with them, each problem once. -/
theorem foldl_visitRow (catalog : Catalog) {found : List Problem}
    (others : ∀ problem ∈ found, ∀ row, problem.concerns row = false) {rows : List (Atom × Atom)}
    (listed : ∀ row ∈ rows, row ∈ catalog.listings) (once : rows.Nodup) :
    rows.foldl (visitRow catalog) found =
      found ++ (rows.filterMap (problemAt catalog)).eraseDups := by
  induction rows using List.reverseRecOn with
  | nil => simp
  | append_singleton rows last ih =>
    have ⟨earlier, _, apart⟩ := List.nodup_append.1 once
    have lastListed := listed last (by simp)
    have before : ∀ row ∈ rows, row ∈ catalog.listings := fun row mem =>
      listed row (List.mem_append_left _ mem)
    -- the last row is new, so what only it can tell is not there yet
    have first : .noSynonymEntry last.1 last.2 ∉
        found ++ (rows.filterMap (problemAt catalog)).eraseDups := by
      intro mem
      rcases List.mem_append.1 mem with known | added
      · simpa [Problem.concerns] using others _ known last
      · obtain ⟨row, among, given⟩ := List.mem_filterMap.1 (List.mem_eraseDups.1 added)
        have about := (wrong_of_problemAt (before row among) given).2
        exact apart row among last (by simp) (by simpa [Problem.concerns] using about)
    rw [List.foldl_concat, ih before earlier, visitRow_eq first, List.filterMap_append]
    cases given : problemAt catalog last with
    | none => simp [given]
    | some problem =>
      have single : [last].filterMap (problemAt catalog) = [problem] := by simp [given]
      have new : problem ∉ found := by
        intro known
        have about := (wrong_of_problemAt lastListed given).2
        rw [others problem known last] at about
        contradiction
      rw [single]
      exact Problem.addTo_append new _

/-- One pass that adds a leaf or a pair of atoms only where it is not in the list yet gathers the
problems of an interface. -/
theorem problems_eq_gather (interface : Interface) : interface.problems = interface.gather := by
  have injective : Function.Injective Problem.noEntry := fun _ _ => Problem.noEntry.inj
  rw [problems, gather, foldl_visitLeaf, foldl_listings, foldl_visitRow, synonymProblems_eq,
    eraseDups_map injective]
  · intro problem mem row
    rcases List.mem_append.1 mem with group | leaf
    · obtain ⟨group, -, rfl⟩ := List.mem_map.1 group
      rfl
    · obtain ⟨atom, -, rfl⟩ := List.mem_map.1 (List.mem_eraseDups.1 leaf)
      rfl
  · exact fun row mem => mem
  · exact interface.catalog.nodup_listings
  · intro atom mem
    obtain ⟨group, -, other⟩ := List.mem_map.1 mem
    contradiction

/-- The leaves without an entry come in the order in which they first occur. -/
theorem pairwise_missing (catalog : Catalog) (leaves : List Atom) :
    (leaves.filter fun atom => !catalog.contains atom).eraseDups.Pairwise fun first second =>
      leaves.idxOf first < leaves.idxOf second := by
  rw [← List.filterMap_eq_filter]
  refine pairwise_eraseDups_filterMap fun item _ found among => ?_
  obtain ⟨_, -, given⟩ := List.mem_filterMap.1 among
  rw [Option.guard_eq_some_iff] at given ⊢
  obtain ⟨rfl, unknown⟩ := given
  rw [beq_iff_eq]
  exact ⟨fun same => ⟨same, same ▸ unknown⟩, And.left⟩

/-- What is wrong with the synonyms comes in the order of the listed synonyms that it is first
met at. -/
theorem pairwise_wrong (catalog : Catalog) :
    (synonymProblems catalog).eraseDups.Pairwise fun first second =>
      catalog.listings.findIdx first.concerns < catalog.listings.findIdx second.concerns := by
  rw [synonymProblems_eq]
  refine pairwise_eraseDups_filterMap fun row listed problem among => ?_
  exact concerns_iff_problemAt listed (mem_filterMap_problemAt.1 among)

/-- The problems of an interface are what one pass gathers, and they are its violations: first each
group with a single child, from the root downwards and from left to right; then each leaf without an
entry, in the order in which the leaves first occur among the nodes; then what is wrong with the
synonyms, in the order in which it is first met at the listed synonyms, which come by key and then
by synonym. Nothing comes twice but a group that is there twice. -/
theorem problems_report (interface : Interface) :
    interface.problems = interface.gather ∧
    interface.pattern.leaves = interface.pattern.nodes.filterMap Pattern.leaf? ∧
    ∃ (missing : List Atom) (wrong : List Problem),
      interface.problems =
        (interface.pattern.nodes.filter Pattern.isSole).map .soleChild ++ missing.map .noEntry ++
          wrong ∧
      interface.problems.map Problem.message =
        (interface.pattern.nodes.filter Pattern.isSole).map
            (fun group => "singleton group not flattened: " ++ group.spelling) ++
          missing.map (fun atom => "no metadata for atom: " ++ atom.spelling) ++
          wrong.map Problem.message ∧
      (∀ atom, atom ∈ missing ↔
        atom ∈ interface.pattern.leaves ∧ interface.catalog.find? atom = none) ∧
      (missing.Pairwise fun first second =>
        interface.pattern.leaves.idxOf first < interface.pattern.leaves.idxOf second) ∧
      (∀ problem, problem ∈ wrong ↔ interface.catalog.Wrong problem) ∧
      (wrong.Pairwise fun first second =>
        interface.catalog.listings.findIdx first.concerns <
          interface.catalog.listings.findIdx second.concerns) ∧
      (∀ key synonym, (key, synonym) ∈ interface.catalog.listings ↔
        ∃ entry, interface.catalog.find? key = some entry ∧ synonym ∈ entry.synonyms) ∧
      (interface.catalog.listings.Pairwise fun first second =>
        first.1 < second.1 ∨ first.1 = second.1 ∧ first.2 < second.2) ∧
      (interface.problems = [] ↔
        interface.pattern.Flat ∧
        (∀ atom ∈ interface.pattern.leaves, ∃ entry, interface.catalog.find? atom = some entry) ∧
        interface.catalog.Consistent) := by
  have listed : interface.problems =
      (interface.pattern.nodes.filter Pattern.isSole).map .soleChild ++
        (interface.pattern.leaves.filter fun atom =>
          !interface.catalog.contains atom).eraseDups.map .noEntry ++
        (synonymProblems interface.catalog).eraseDups := by
    rw [problems, Pattern.soleChildren_eq]
  refine ⟨problems_eq_gather interface, (Pattern.filterMap_leaf?_nodes _).symm, _, _, listed, ?_,
    fun atom => ?_, pairwise_missing _ _, fun problem => ?_, pairwise_wrong _,
    fun _ _ => Catalog.mem_listings, Catalog.listings_ordered _, problems_eq_nil⟩
  · rw [listed, List.map_append, List.map_append, List.map_map, List.map_map]
    rfl
  · rw [List.mem_eraseDups, List.mem_filter, AtomMap.contains, Bool.not_eq_true',
      Option.isSome_eq_false_iff, Option.isNone_iff_eq_none]
  · rw [List.mem_eraseDups, synonymProblems_eq, mem_filterMap_problemAt]

/-- A leaf without an entry is reported once, and a pair of atoms where it is first met, the smaller
atom first. -/
example :
    let two : AtomSet := .ofList [.short 'v', .long "verbose"]
    let three : AtomSet := .ofList [.short 'V', .short 'v', .long "verbose"]
    let catalog : Catalog := .ofList
      [(.short 'V', { Entry.blank with synonyms := .ofList [.short 'V'] }),
        (.short 'v', { Entry.blank with synonyms := two }),
        (.long "verbose", { Entry.blank with synonyms := three })]
    let run : Pattern Atom := .leaf (.command "run")
    problems ⟨.seq [run, .alt [.leaf (.short 'v')], .rep run], catalog⟩ =
      [.soleChild (.alt [.leaf (.short 'v')]), .noEntry (.command "run"),
        .unequalSynonyms (.short 'v') (.long "verbose"),
        .unequalSynonyms (.short 'V') (.long "verbose")] := by
  decide +kernel

end Interface

end Synopsis

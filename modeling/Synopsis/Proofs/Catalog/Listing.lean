import Synopsis.Description
import Synopsis.Proofs.Catalog.Synonyms

/-!
# What described options say

Entries are put into a catalog under each of their synonyms, a later one instead of an earlier
one. So what is known about a listed option is the last entry that lists it, whole, and about any
other option that it is mentioned, perhaps with a value. Every listed synonym has an entry then,
and the catalog is consistent unless two entries share a synonym and differ in another one.
-/
namespace Synopsis.Catalog

/-- The last of some entries that lists an atom. -/
def lastListing (entries : List Entry) (atom : Atom) : Option Entry :=
  (entries.filter fun entry => decide (atom ∈ entry.synonyms)).getLast?

/-- Entries before others only count where none of the others lists the atom. -/
theorem lastListing_cons (first : Entry) (later : List Entry) (atom : Atom) :
    lastListing (first :: later) atom =
      (lastListing later atom).or (if atom ∈ first.synonyms then some first else none) := by
  rw [lastListing, lastListing, List.filter_cons]
  by_cases listed : atom ∈ first.synonyms
  · rw [if_pos (decide_eq_true listed), if_pos listed, List.getLast?_cons]
    cases (later.filter _).getLast? <;> rfl
  · rw [if_neg (by simpa using listed), if_neg listed, Option.or_none]

/-- The last entry that lists an atom is one of the entries, and lists the atom. -/
theorem mem_of_lastListing {entries : List Entry} {atom : Atom} {entry : Entry}
    (last : lastListing entries atom = some entry) : entry ∈ entries ∧ atom ∈ entry.synonyms := by
  have mem := List.mem_of_getLast? last
  rw [List.mem_filter, decide_eq_true_eq] at mem
  exact mem

/-- An atom that some entry lists has a last one that does. -/
theorem exists_lastListing {entries : List Entry} {atom : Atom} {entry : Entry}
    (mem : entry ∈ entries) (listed : atom ∈ entry.synonyms) :
    ∃ last, lastListing entries atom = some last := by
  have among : entry ∈ entries.filter fun entry => decide (atom ∈ entry.synonyms) :=
    List.mem_filter.2 ⟨mem, decide_eq_true listed⟩
  refine Option.isSome_iff_exists.1 (List.getLast?_isSome.2 fun none => ?_)
  rw [none] at among
  exact absurd among List.not_mem_nil

/-- Two atoms, each listed by the last entry that lists the other, have the same last entry. -/
theorem lastListing_unique {entries : List Entry} {first second : Atom} {one other : Entry}
    (lastOne : lastListing entries first = some one)
    (lastOther : lastListing entries second = some other)
    (inOther : first ∈ other.synonyms) (inOne : second ∈ one.synonyms) : one = other := by
  induction entries with
  | nil => contradiction
  | cons head later ih =>
    rw [lastListing_cons] at lastOne lastOther
    -- an entry among the later ones that lists both atoms is found for both of them
    cases foundOne : lastListing later first with
    | some found =>
      cases foundOther : lastListing later second with
      | some found' =>
        rw [foundOne] at lastOne
        rw [foundOther] at lastOther
        exact ih (foundOne.trans lastOne) (foundOther.trans lastOther)
      | none =>
        rw [foundOne] at lastOne
        obtain rfl := Option.some.inj lastOne
        obtain ⟨last, listed⟩ := exists_lastListing (mem_of_lastListing foundOne).1 inOne
        rw [foundOther] at listed
        contradiction
    | none =>
      cases foundOther : lastListing later second with
      | some found =>
        rw [foundOther] at lastOther
        obtain rfl := Option.some.inj lastOther
        obtain ⟨last, listed⟩ := exists_lastListing (mem_of_lastListing foundOther).1 inOther
        rw [foundOne] at listed
        contradiction
      | none =>
        rw [foundOne, Option.none_or, Option.ite_none_right_eq_some] at lastOne
        rw [foundOther, Option.none_or, Option.ite_none_right_eq_some] at lastOther
        rw [← Option.some.inj lastOne.2, ← Option.some.inj lastOther.2]

/-- Describing an option replaces the entry under each of its synonyms and no other entry. -/
theorem find?_describe (catalog : Catalog) (entry : Entry) (atom : Atom) :
    (catalog.describe entry).find? atom =
      if atom ∈ entry.synonyms then some entry else catalog.find? atom := by
  have general : ∀ (synonyms : List Atom) (known : Catalog),
      (synonyms.foldl (fun found synonym => found.insert synonym entry) known).find? atom =
        if atom ∈ synonyms then some entry else known.find? atom := by
    intro synonyms
    induction synonyms with
    | nil => exact fun known => rfl
    | cons first later ih =>
      intro known
      rw [List.foldl_cons, ih, AtomMap.find?_insert]
      by_cases same : atom = first
      · simp only [same, if_true, ite_self, List.mem_cons, true_or]
      · simp only [same, if_false, List.mem_cons, false_or]
  exact general entry.synonyms.toList catalog

/-- What is known of an atom after describing options is the last entry that lists it, or, where
none does, what was known before. -/
theorem find?_describeAll (catalog : Catalog) (entries : List Entry) (atom : Atom) :
    (catalog.describeAll entries).find? atom =
      (lastListing entries atom).or (catalog.find? atom) := by
  rw [describeAll]
  induction entries generalizing catalog with
  | nil => rfl
  | cons first later ih =>
    rw [List.foldl_cons, ih, find?_describe, lastListing_cons, Option.or_assoc]
    congr 1
    split <;> rfl

/-- Mentioning options records each of them, with a value if any mention has one, and leaves all
other entries and fields. -/
theorem find?_foldl_mention (mentions : List Usage.Mention) (catalog : Catalog) (atom : Atom) :
    (mentions.foldl mention catalog).find? atom =
      if atom ∈ mentions.map Usage.Mention.option then
        some { (catalog.find? atom).getD .blank with
          takesValue := ((catalog.find? atom).getD .blank).takesValue ||
            decide (⟨atom, true⟩ ∈ mentions) }
      else catalog.find? atom := by
  induction mentions generalizing catalog with
  | nil => rfl
  | cons first later ih =>
    obtain ⟨option, valued⟩ := first
    rw [List.foldl_cons, ih, mention, AtomMap.find?_insert]
    by_cases same : atom = option
    · subst same
      rw [if_pos rfl, Option.getD_some, List.map_cons, if_pos List.mem_cons_self]
      split
      · cases valued <;> simp
      · next none =>
        have absent : ⟨atom, true⟩ ∉ later := fun mem => none (List.mem_map_of_mem mem)
        cases valued <;> simp [absent]
    · simp [same]

/-- What is known of an option from mentions is that it is mentioned and whether with a value. -/
theorem find?_ofMentions (mentions : List Usage.Mention) (atom : Atom) :
    (ofMentions mentions).find? atom =
      if atom ∈ mentions.map Usage.Mention.option then
        some { Entry.blank with takesValue := decide (⟨atom, true⟩ ∈ mentions) }
      else none := by
  rw [ofMentions, find?_foldl_mention]
  rfl

/-- An option that is only mentioned has no synonyms. -/
theorem synonyms_of_ofMentions (mentions : List Usage.Mention) {atom : Atom} {entry : Entry}
    (known : (ofMentions mentions).find? atom = some entry) : entry.synonyms = .empty := by
  rw [find?_ofMentions] at known
  split at known
  · obtain rfl := Option.some.inj known
    rfl
  · contradiction

/-- Any two of the entries list the same synonyms or none in common. -/
def Separate (entries : List Entry) : Prop :=
  ∀ first ∈ entries, ∀ second ∈ entries,
    first.synonyms = second.synonyms ∨ ∀ atom ∈ first.synonyms, atom ∉ second.synonyms

instance (entries : List Entry) : Decidable (Separate entries) :=
  inferInstanceAs (Decidable (∀ first ∈ entries, ∀ second ∈ entries,
    first.synonyms = second.synonyms ∨
      ∀ atom ∈ first.synonyms.toList, atom ∉ second.synonyms.toList))

section Described

variable {mentions : List Usage.Mention} {entries : List Entry} {key synonym : Atom} {entry : Entry}

/-- The entry of an atom with synonyms is the last one that lists the atom. -/
theorem lastListing_of_described
    (found : ((ofMentions mentions).describeAll entries).find? key = some entry)
    (listed : synonym ∈ entry.synonyms) : lastListing entries key = some entry := by
  rw [find?_describeAll] at found
  cases last : lastListing entries key with
  | some other =>
    rw [last] at found
    exact found
  | none =>
    rw [last, Option.none_or] at found
    rw [synonyms_of_ofMentions mentions found] at listed
    exact absurd listed List.not_mem_nil

/-- The entry of a listed synonym is the last one that lists it. -/
theorem exists_entry_described
    (found : ((ofMentions mentions).describeAll entries).find? key = some entry)
    (listed : synonym ∈ entry.synonyms) :
    ∃ other, ((ofMentions mentions).describeAll entries).find? synonym = some other ∧
      lastListing entries synonym = some other := by
  obtain ⟨among, -⟩ := mem_of_lastListing (lastListing_of_described found listed)
  obtain ⟨other, last⟩ := exists_lastListing among listed
  refine ⟨other, ?_, last⟩
  rw [find?_describeAll, last, Option.some_or]

/-- Every synonym that is listed in a described catalog has an entry. -/
theorem closed_described (mentions : List Usage.Mention) (entries : List Entry) :
    ((ofMentions mentions).describeAll entries).Closed := by
  intro key entry found synonym listed
  obtain ⟨other, present, -⟩ := exists_entry_described found listed
  exact ⟨other, present⟩

/-- Separate entries make a consistent catalog. -/
theorem consistent_described (mentions : List Usage.Mention) (separate : Separate entries) :
    ((ofMentions mentions).describeAll entries).Consistent := by
  intro key entry found synonym listed
  obtain ⟨other, present, last⟩ := exists_entry_described found listed
  refine ⟨other, present, ?_⟩
  obtain ⟨inEntries, -⟩ := mem_of_lastListing (lastListing_of_described found listed)
  obtain ⟨otherIn, inOther⟩ := mem_of_lastListing last
  rcases separate entry inEntries other otherIn with same | apart
  · exact same.symm
  · exact absurd inOther (apart synonym listed)

/-- Every synonym that is listed in a described catalog is one that some entry lists. -/
theorem exists_listing_of_mem_synonymsOf
    (listed : synonym ∈ ((ofMentions mentions).describeAll entries).synonymsOf key) :
    ∃ entry ∈ entries, synonym ∈ entry.synonyms := by
  obtain ⟨entry, found, same⟩ := find?_of_mem_synonymsOf listed
  rw [← same] at listed
  exact ⟨entry, (mem_of_lastListing (lastListing_of_described found listed)).1, listed⟩

/-- An atom with synonyms in a described catalog is one of them. -/
theorem mem_own_synonyms
    (found : ((ofMentions mentions).describeAll entries).find? key = some entry)
    (listed : synonym ∈ entry.synonyms) : key ∈ entry.synonyms :=
  (mem_of_lastListing (lastListing_of_described found listed)).2

/-- Where a described catalog is consistent, the synonyms of an atom all have its entry. -/
theorem find?_synonym_described
    (consistent : ((ofMentions mentions).describeAll entries).Consistent)
    (found : ((ofMentions mentions).describeAll entries).find? key = some entry)
    (listed : synonym ∈ entry.synonyms) :
    ((ofMentions mentions).describeAll entries).find? synonym = some entry := by
  obtain ⟨other, present, lastOther⟩ := exists_entry_described found listed
  obtain ⟨other', present', same⟩ := consistent key entry found synonym listed
  obtain rfl : other = other' := Option.some.inj (present.symm.trans present')
  have last := lastListing_of_described found listed
  have own : key ∈ other.synonyms := same ▸ mem_own_synonyms found listed
  rw [present, lastListing_unique last lastOther own listed]

end Described

end Synopsis.Catalog

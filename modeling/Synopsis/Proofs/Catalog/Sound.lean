import Synopsis.Proofs.Catalog.Listing
import Synopsis.Proofs.Pattern.Sound

/-!
# Sound catalogs

A sound catalog knows well-formed atoms only, and lists an atom with synonyms as one of them, all of
which are options. Described options make such a catalog. Expanding a sound pattern with it gives a
sound pattern, whose leaves may then be recorded in it.
-/
namespace Synopsis.Catalog

/-- A catalog of well-formed atoms in which only options have synonyms, their own spelling
included. -/
structure Sound (catalog : Catalog) : Prop where
  /-- Every atom with an entry is well formed. -/
  key : ∀ key entry, catalog.find? key = some entry → key.wellFormed = true
  /-- Every synonym is a well-formed option. -/
  synonym : ∀ key entry, catalog.find? key = some entry →
    ∀ synonym ∈ entry.synonyms, synonym.isOption = true ∧ synonym.wellFormed = true
  /-- An atom with synonyms is one of them. -/
  own : ∀ key entry, catalog.find? key = some entry →
    entry.synonyms.isEmpty = false → key ∈ entry.synonyms

/-- Well-formed options that are mentioned and described make a sound catalog. -/
theorem sound_described {mentions : List Usage.Mention} {entries : List Entry}
    (mentioned : ∀ mention ∈ mentions, mention.option.wellFormed = true)
    (described : ∀ entry ∈ entries, ∀ synonym ∈ entry.synonyms,
      synonym.isOption = true ∧ synonym.wellFormed = true) :
    ((ofMentions mentions).describeAll entries).Sound where
  key key entry found := by
    rw [find?_describeAll] at found
    cases last : lastListing entries key with
    | some other =>
      obtain ⟨among, listed⟩ := mem_of_lastListing last
      exact (described other among key listed).2
    | none =>
      rw [last, Option.none_or, find?_ofMentions] at found
      obtain ⟨option, -⟩ := Option.ite_none_right_eq_some.1 found
      obtain ⟨mention, mem, rfl⟩ := List.mem_map.1 option
      exact mentioned mention mem
  synonym key entry found synonym listed := by
    obtain ⟨among, -⟩ := mem_of_lastListing (lastListing_of_described found listed)
    exact described entry among synonym listed
  own key entry found filled := by
    obtain ⟨synonym, listed⟩ := AtomSet.isEmpty_eq_false_iff.1 filled
    exact mem_own_synonyms found listed

section Sound

variable {catalog : Catalog} (sound : catalog.Sound)

include sound

/-- The synonyms of an atom are well-formed options. -/
theorem Sound.synonymsOf {key synonym : Atom} (listed : synonym ∈ catalog.synonymsOf key) :
    synonym.isOption = true ∧ synonym.wellFormed = true := by
  obtain ⟨entry, found, same⟩ := find?_of_mem_synonymsOf listed
  exact sound.synonym key entry found synonym (same ▸ listed)

/-- What a well-formed atom is expanded to is sound, unless it is the placeholder for options. -/
theorem Sound.spellings {atom : Atom} (formed : atom.wellFormed = true)
    (named : atom ≠ .command "options") (other : atom ≠ .options) :
    (catalog.spellings atom).Sound := by
  obtain ⟨member, among⟩ := catalog.exists_mem_group atom
  have each : ∀ spelling ∈ (catalog.group atom).toList, (Pattern.leaf spelling).Sound := by
    intro spelling mem
    rcases group_cases catalog atom with ⟨-, -, same⟩ | same
    · rw [same] at mem
      obtain ⟨isOption, wellFormed⟩ := sound.synonymsOf mem
      refine Pattern.sound_leaf wellFormed ?_ ?_ <;>
        · rintro rfl
          contradiction
    · rw [same] at mem
      obtain rfl := List.mem_singleton.1 (AtomSet.mem_ofList.1 mem)
      exact Pattern.sound_leaf formed named other
  rw [spellings_eq_choice]
  refine Pattern.sound_choice ?_ (List.forall_mem_map.2 each)
  intro none
  rw [List.map_eq_nil_iff] at none
  exact absurd (none ▸ AtomSet.mem_toList.2 among) List.not_mem_nil

/-- Expanding keeps a pattern sound. -/
theorem Sound.expand {pattern : Pattern Atom} (written : pattern.Sound) :
    (pattern.expand catalog).Sound :=
  Pattern.Sound.bind (f := catalog.spellings) rfl (fun _ => sound.spellings) written

/-- Recording the repeatability of well-formed leaves keeps a catalog sound. -/
theorem Sound.recordRepeats {pattern : Pattern Atom}
    (leaves : ∀ atom ∈ pattern.leaves, atom.wellFormed = true) :
    (catalog.recordRepeats pattern).Sound := by
  -- an entry with synonyms has those that it had before
  have before : ∀ {key entry synonym}, (catalog.recordRepeats pattern).find? key = some entry →
      synonym ∈ entry.synonyms →
      ∃ known, catalog.find? key = some known ∧ known.synonyms = entry.synonyms := by
    intro key entry synonym found listed
    rw [← synonymsOf_eq found, synonymsOf_recordRepeats] at listed ⊢
    exact find?_of_mem_synonymsOf listed
  refine ⟨fun key entry found => ?_, fun key entry found synonym listed => ?_,
    fun key entry found filled => ?_⟩
  · rw [find?_recordRepeats] at found
    split at found
    · next leaf => exact leaves key leaf
    · exact sound.key key entry found
  · obtain ⟨known, present, same⟩ := before found listed
    exact sound.synonym key known present synonym (same ▸ listed)
  · obtain ⟨synonym, listed⟩ := AtomSet.isEmpty_eq_false_iff.1 filled
    obtain ⟨known, present, same⟩ := before found listed
    rw [← same] at filled ⊢
    exact sound.own key known present filled

end Sound

end Synopsis.Catalog

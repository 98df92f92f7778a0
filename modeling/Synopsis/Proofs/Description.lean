import Synopsis.Description
import Synopsis.Proofs.Except

/-!
# What descriptions list

Every spelling that a record lists is that of a well-formed option.
-/
namespace Synopsis.Description

/-- Reading a placeholder does not change the option before it. -/
theorem option_mention (option : Atom) (text : List Char) :
    (Usage.mention option text).1.option = option := by
  rw [Usage.mention]
  split <;> rfl

/-- What is read as a spelling is a well-formed option. -/
theorem formed_of_spelling? {text rest : List Char} {mention : Usage.Mention}
    (read : spelling? text = some (mention, rest)) :
    mention.option.isOption = true ∧ mention.option.wellFormed = true := by
  unfold spelling? at read
  split at read
  · next found long =>
    obtain rfl := Option.some.inj read
    unfold Usage.longOption? at long
    repeat' split at long
    · next name last named =>
      have same : (Usage.mention (.long (String.ofList name)) last).1 = mention :=
        congrArg Prod.fst (Option.some.inj long)
      rw [← same, option_mention, Atom.wellFormed, String.toList_ofList]
      exact ⟨rfl, Text.isName_of_name? named⟩
    all_goals contradiction
  · unfold Usage.shortOption? at read
    repeat' split at read
    · next letter last _ isLetter =>
      have same : (Usage.mention (.short letter) last).1 = mention :=
        congrArg Prod.fst (Option.some.inj read)
      rw [← same, option_mention]
      exact ⟨rfl, isLetter⟩
    all_goals contradiction

/-- The spellings after the first one are well-formed options. -/
theorem formed_of_moreSpellings (bound : Nat) (text : List Char) :
    ∀ mention ∈ (moreSpellings bound text).1,
      mention.option.isOption = true ∧ mention.option.wellFormed = true := by
  induction bound generalizing text with
  | zero => exact fun mention mem => absurd mem List.not_mem_nil
  | succ bound ih =>
    rw [moreSpellings]
    split
    · exact fun mention mem => absurd mem List.not_mem_nil
    · split
      · exact fun mention mem => absurd mem List.not_mem_nil
      · next next gap first rest read =>
        exact List.forall_mem_cons.2 ⟨formed_of_spelling? read, ih rest⟩

/-- The spellings at the beginning of a record are well-formed options. -/
theorem formed_of_spellings {text rest : List Char} {mentions : List Usage.Mention}
    (read : spellings text = .ok (mentions, rest)) :
    ∀ mention ∈ mentions, mention.option.isOption = true ∧ mention.option.wellFormed = true := by
  rw [spellings] at read
  dsimp only at read
  split at read
  · contradiction
  · next first stop one =>
    obtain ⟨rfl, -⟩ := ok_pair_inj read
    exact List.forall_mem_cons.2
      ⟨formed_of_spelling? one, formed_of_moreSpellings stop.length stop⟩

/-- The entry of a record lists well-formed options only. -/
theorem formed_of_ofRecord {record later : List Char} {entry : Entry}
    (read : ofRecord record later = .ok entry) :
    ∀ synonym ∈ entry.synonyms, synonym.isOption = true ∧ synonym.wellFormed = true := by
  rw [ofRecord] at read
  split at read
  · contradiction
  · next mentions rest listed =>
    split at read
    · contradiction
    · obtain rfl := Except.ok.inj read
      intro synonym mem
      obtain ⟨mention, among, rfl⟩ := List.mem_map.1 (AtomSet.mem_ofList.1 mem)
      exact formed_of_spellings listed mention among

/-- The entries that lines describe list well-formed options only. -/
theorem formed_of_ofLines {lines : List (List Char)} {entries : List Entry}
    (read : ofLines lines = .ok entries) :
    ∀ entry ∈ entries, ∀ synonym ∈ entry.synonyms,
      synonym.isOption = true ∧ synonym.wellFormed = true := by
  rw [ofLines] at read
  generalize (split lines).2 = records at read
  induction records generalizing entries with
  | nil =>
    obtain rfl := Except.ok.inj read
    exact fun entry mem => absurd mem List.not_mem_nil
  | cons record later ih =>
    rw [ofRecords] at read
    split at read
    · contradiction
    · next first one =>
      split at read
      · contradiction
      · next found more =>
        obtain rfl := Except.ok.inj read
        exact List.forall_mem_cons.2 ⟨formed_of_ofRecord one, ih more⟩

/-- The entries that lines describe list options only. -/
theorem isOption_of_ofLines {lines : List (List Char)} {entries : List Entry}
    (read : ofLines lines = .ok entries) :
    ∀ entry ∈ entries, ∀ synonym ∈ entry.synonyms, synonym.isOption = true :=
  fun entry mem synonym listed => (formed_of_ofLines read entry mem synonym listed).1

end Synopsis.Description

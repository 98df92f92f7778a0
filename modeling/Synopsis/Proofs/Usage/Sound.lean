import Synopsis.Proofs.Pattern.Sound
import Synopsis.Proofs.Usage.Phrase
import Synopsis.Proofs.Usage.Produced

/-!
# Usage lines give sound patterns

Every simple expression is a sound pattern, because it is a phrase whose letters and names are taken
as they are, and because the word for all options makes a repetition of the placeholder. Sequences,
choices, brackets and ellipses keep that. The options that a usage block mentions are the options
among its leaves.
-/
namespace Synopsis.Usage

/-- The atoms of a phrase that fits are well formed, and no name in it is the word for all
options. -/
theorem Phrase.Fits.formed {phrase : Phrase} {after : List Char} (fits : phrase.Fits after) :
    ∀ atom ∈ phrase.atoms, atom.wellFormed = true ∧ atom ≠ .command "options" := by
  cases phrase with
  | short letter value => exact List.forall_mem_singleton.2 ⟨fits.1, nofun⟩
  | stack letters => exact List.forall_mem_map.2 fun letter mem => ⟨fits.2.1 letter mem, nofun⟩
  | long name value =>
    refine List.forall_mem_singleton.2 ⟨?_, nofun⟩
    rw [Atom.wellFormed, String.toList_ofList]
    exact fits.1
  | options => exact List.forall_mem_singleton.2 ⟨rfl, nofun⟩
  | argument name =>
    refine List.forall_mem_singleton.2 ⟨?_, nofun⟩
    rw [Atom.wellFormed, String.toList_ofList]
    exact fits
  | command name =>
    obtain ⟨named, other, -⟩ := fits
    refine List.forall_mem_singleton.2 ⟨?_, fun same => other ?_⟩
    · rw [Atom.wellFormed, String.toList_ofList]
      exact named
    · have word : String.ofList name = String.ofList optionsWord := Atom.command.inj same
      exact String.ofList_injective word

/-- A phrase that fits has an atom. -/
theorem Phrase.Fits.atoms_ne_nil {phrase : Phrase} {after : List Char} (fits : phrase.Fits after) :
    phrase.atoms ≠ [] := by
  cases phrase with
  | stack letters =>
    have several : 2 ≤ letters.length := fits.1
    refine List.ne_nil_of_length_pos ?_
    rw [atoms, List.length_map]
    omega
  | _ => exact List.cons_ne_nil _ _

/-- A written option is a sound pattern if what it mentions are well-formed options. -/
theorem sound_ofMentions {found : List Mention} (filled : found ≠ [])
    (formed : ∀ mention ∈ found, mention.option.wellFormed = true ∧ mention.option.isOption = true) :
    (Fragment.ofMentions found).pattern.Sound := by
  have each : ∀ mention ∈ found, (Pattern.leaf mention.option).Sound := by
    intro mention mem
    obtain ⟨wellFormed, isOption⟩ := formed mention mem
    refine Pattern.sound_leaf wellFormed ?_ ?_ <;>
      · intro same
        rw [same] at isOption
        contradiction
  unfold Fragment.ofMentions
  split
  · exact each _ List.mem_cons_self
  · refine (Pattern.sound_choice ?_ (List.forall_mem_map.2 each)).rep
    exact fun none => filled (List.map_eq_nil_iff.1 none)

/-- What is read as a phrase of options mentions them. -/
theorem formed_of_phrase {phrase : Phrase} {after : List Char} {found : List Mention}
    (fits : phrase.Fits after) (atoms : found.map Mention.option = phrase.atoms)
    (mentions : found = phrase.mentions) :
    found ≠ [] ∧
      ∀ mention ∈ found, mention.option.wellFormed = true ∧ mention.option.isOption = true := by
  refine ⟨fun none => ?_, fun mention mem => ?_⟩
  · rw [none] at atoms
    exact fits.atoms_ne_nil atoms.symm
  · have among : mention.option ∈ found.map Mention.option := List.mem_map_of_mem mem
    have options : found.map Mention.option = phrase.atoms.filter Atom.isOption := by
      rw [mentions, phrase.option_mentions]
    have isOption := (List.mem_filter.1 (options ▸ among)).2
    exact ⟨(fits.formed _ (atoms ▸ among)).1, isOption⟩

/-- The pattern of a simple expression is sound. -/
theorem sound_of_simple? {text rest : List Char} {fragment : Fragment}
    (read : simple? text = some (fragment, rest)) : fragment.pattern.Sound := by
  obtain ⟨phrase, -, fits, leaves, -⟩ := phrase_of_simple? read
  unfold simple? at read
  repeat' split at read
  · next found left stacked =>
    obtain ⟨rfl, -⟩ := Prod.mk.inj (Option.some.inj read)
    obtain ⟨words, -, own, atoms, mentions⟩ := phrase_of_stack? stacked
    obtain ⟨filled, formed⟩ := formed_of_phrase own atoms mentions
    exact sound_ofMentions filled formed
  · next found left long =>
    obtain ⟨rfl, -⟩ := Prod.mk.inj (Option.some.inj read)
    obtain ⟨words, -, own, atoms, mentions⟩ := phrase_of_longOption? long
    have options : [found].map Mention.option = words.atoms := atoms
    obtain ⟨filled, formed⟩ := formed_of_phrase own options mentions
    exact sound_ofMentions filled formed
  · obtain ⟨rfl, -⟩ := Prod.mk.inj (Option.some.inj read)
    exact Pattern.sound_rep_options
  · next name left bracketed =>
    obtain ⟨rfl, -⟩ := Prod.mk.inj (Option.some.inj read)
    have formed := fits.formed (.argument (String.ofList name)) (leaves ▸ List.mem_cons_self)
    exact Pattern.sound_leaf formed.1 formed.2 nofun
  · next name left found =>
    obtain ⟨rfl, -⟩ := Prod.mk.inj (Option.some.inj read)
    have formed := fits.formed (.command (String.ofList name)) (leaves ▸ List.mem_cons_self)
    exact Pattern.sound_leaf formed.1 formed.2 nofun
  · contradiction

/-- What is read of usage lines is a sound pattern. -/
theorem sound_of_produced {fragment : Fragment} (produced : Produced fragment) :
    fragment.pattern.Sound := by
  induction produced with
  | simple read => exact sound_of_simple? read
  | sequence each ih => exact Pattern.sound_sequence (List.forall_mem_map.2 ih)
  | choice some each ih =>
    refine Pattern.sound_choice ?_ (List.forall_mem_map.2 ih)
    exact fun none => some (List.map_eq_nil_iff.1 none)
  | optional inside ih => exact ih.opt
  | repeated inside ih => exact ih.rep

/-- What is read of usage lines mentions the options among its leaves, in order. -/
theorem option_mentions_of_produced {fragment : Fragment} (produced : Produced fragment) :
    fragment.mentions.map Mention.option = fragment.pattern.leaves.filter Atom.isOption := by
  have joined : ∀ fragments : List Fragment,
      (∀ child ∈ fragments,
        child.mentions.map Mention.option = child.pattern.leaves.filter Atom.isOption) →
      (fragments.flatMap Fragment.mentions).map Mention.option =
        (Pattern.leavesOf (fragments.map Fragment.pattern)).filter Atom.isOption := by
    intro fragments each
    rw [Pattern.leavesOf_eq, List.flatMap_map, List.map_flatMap, List.filter_flatMap,
      List.flatMap_def, List.flatMap_def, List.map_congr_left each]
  induction produced with
  | simple read =>
    obtain ⟨phrase, -, -, leaves, mentions⟩ := phrase_of_simple? read
    rw [mentions, leaves, phrase.option_mentions]
  | @sequence parts each ih =>
    have leaves : (Fragment.sequence parts).pattern.leaves =
        Pattern.leavesOf (parts.map Fragment.pattern) := Pattern.leaves_collapse _
    rw [leaves]
    exact joined parts ih
  | @choice branches some each ih =>
    have leaves : (Fragment.choice branches).pattern.leaves =
        Pattern.leavesOf (branches.map Fragment.pattern) := Pattern.leaves_collapse _
    rw [leaves]
    exact joined branches ih
  | optional inside ih => exact ih
  | repeated inside ih => exact ih

/-- Every option that usage lines mention is well formed. -/
theorem formed_of_produced {fragment : Fragment} (produced : Produced fragment) :
    ∀ mention ∈ fragment.mentions, mention.option.wellFormed = true := by
  intro mention mem
  have among := List.mem_map_of_mem (f := Mention.option) mem
  rw [option_mentions_of_produced produced] at among
  exact ((sound_of_produced produced).leaves _ (List.mem_filter.1 among).1).1

end Synopsis.Usage

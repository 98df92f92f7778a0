import Synopsis.Atom.Spelling
import Synopsis.Proofs.Text.Front

/-!
# Atoms and their spellings

Reading accepts the spelling of every well-formed atom as that atom, and no other text. The
spellings of the kinds of atoms overlap where a text in an atom is no name, and there no atom is
read back.
-/
namespace Synopsis.Atom

open Text (isName)

/-- A name that is read makes a well-formed atom if the kind of atom asks for a name. -/
theorem named?_eq_some {make : String → Atom} {name : List Char} {atom : Atom} :
    named? make name = some atom ↔ isName name = true ∧ make (String.ofList name) = atom := by
  rw [named?, Option.ite_none_right_eq_some, Option.some.injEq]

/-- What stands before a closing angle bracket is read whole. -/
theorem unbracket?_eq_some {rest name : List Char} :
    unbracket? rest = some name ↔ rest = name ++ ['>'] := by
  rw [unbracket?, Option.ite_none_right_eq_some, Option.some.injEq]
  constructor
  · rintro ⟨last, rfl⟩
    obtain ⟨before, rfl⟩ := List.getLast?_eq_some_iff.1 last
    rw [List.dropLast_concat]
  · rintro rfl
    exact ⟨List.getLast?_concat, List.dropLast_concat⟩

/-- What is read as an atom is the spelling of that atom, which is well formed. -/
theorem wellFormed_of_ofSpell? {text : List Char} {atom : Atom}
    (read : ofSpell? text = some atom) : atom.wellFormed = true ∧ atom.spell = text := by
  unfold ofSpell? at read
  split at read
  · next same =>
    obtain rfl := Option.some.inj read
    exact ⟨rfl, same.symm⟩
  · split at read
    · next name =>
      obtain ⟨named, rfl⟩ := named?_eq_some.1 read
      rw [wellFormed, spell, String.toList_ofList]
      exact ⟨named, rfl⟩
    · split at read
      · next letter =>
        obtain ⟨isLetter, same⟩ := Option.ite_none_right_eq_some.1 read
        obtain rfl := Option.some.inj same
        exact ⟨isLetter, rfl⟩
      · contradiction
    · split at read
      · next rest name inside =>
        obtain ⟨named, rfl⟩ := named?_eq_some.1 read
        rw [wellFormed, spell, String.toList_ofList, unbracket?_eq_some.1 inside]
        exact ⟨named, rfl⟩
      · contradiction
    · obtain ⟨named, rfl⟩ := named?_eq_some.1 read
      rw [wellFormed, spell, String.toList_ofList]
      exact ⟨named, rfl⟩

/-- A well-formed atom is read from its spelling. -/
theorem ofSpell?_spell {atom : Atom} (formed : atom.wellFormed = true) :
    ofSpell? atom.spell = some atom := by
  cases atom with
  | short letter =>
    have plain : letter ≠ '-' := by
      rintro rfl
      contradiction
    have other : ['-', letter] ≠ Atom.options.spell := fun same => nomatch same
    rw [spell, ofSpell?, if_neg other]
    · exact if_pos formed
    · rintro name ⟨⟩
      exact plain rfl
  | long name =>
    have other : '-' :: '-' :: name.toList ≠ Atom.options.spell := fun same => nomatch same
    rw [spell, ofSpell?, if_neg other]
    exact named?_eq_some.2 ⟨formed, by rw [String.ofList_toList]⟩
  | command name =>
    obtain ⟨c, more, whole, first, -⟩ := Text.exists_first_of_isName formed
    have other : name.toList ≠ Atom.options.spell := by
      rw [whole]
      rintro ⟨⟩
      contradiction
    rw [spell, ofSpell?, if_neg other]
    · exact named?_eq_some.2 ⟨formed, by rw [String.ofList_toList]⟩
    all_goals
      intro rest same
      rw [whole] at same
      obtain ⟨rfl, -⟩ := List.cons.inj same
      contradiction
  | argument name =>
    have other : '<' :: (name.toList ++ ['>']) ≠ Atom.options.spell := fun same => nomatch same
    have inside : unbracket? (name.toList ++ ['>']) = some name.toList := unbracket?_eq_some.2 rfl
    rw [spell, List.cons_append, ofSpell?, if_neg other]
    simp only [inside]
    exact named?_eq_some.2 ⟨formed, by rw [String.ofList_toList]⟩
  | options => rfl

/-- A well-formed atom is read from its spelling. -/
theorem read_spelling {atom : Atom} (formed : atom.wellFormed = true) :
    read atom.spelling = .ok atom := by
  rw [read, ofSpelling?, spelling, String.toList_ofList, ofSpell?_spell formed]

/-- A text is read as an atom exactly where the atom is well formed and the text its spelling. -/
theorem read_eq_ok_iff {text : String} {atom : Atom} :
    read text = .ok atom ↔ atom.wellFormed = true ∧ text = atom.spelling := by
  constructor
  · intro given
    unfold read at given
    split at given
    · next spelled =>
      obtain rfl := Except.ok.inj given
      obtain ⟨formed, same⟩ := wellFormed_of_ofSpell? spelled
      exact ⟨formed, by rw [spelling, same, String.ofList_toList]⟩
    · contradiction
  · rintro ⟨formed, rfl⟩
    exact read_spelling formed

/-- Every atom that is read is well formed. -/
theorem wellFormed_of_read {text : String} {atom : Atom} (given : read text = .ok atom) :
    atom.wellFormed = true := (read_eq_ok_iff.1 given).1

/-- An atom is read back from its spelling exactly if it is well formed. -/
theorem read_spelling_eq_ok {atom : Atom} :
    read atom.spelling = .ok atom ↔ atom.wellFormed = true := by
  rw [read_eq_ok_iff, and_iff_left rfl]

/-- A well-formed atom is the placeholder for options, an option with an ASCII letter, or an atom of
another kind with a name. -/
theorem wellFormed_iff {atom : Atom} :
    atom.wellFormed = true ↔
      atom = .options ∨ (∃ letter, letter.isAlpha = true ∧ atom = .short letter) ∨
        ∃ name : String, isName name.toList = true ∧
          (atom = .long name ∨ atom = .command name ∨ atom = .argument name) := by
  cases atom <;> simp [wellFormed]

/-- Reading and spelling are inverse on well-formed atoms and only there. A text that is read as an
atom is the spelling of that atom, so no two texts are read as one atom. An atom with any character
or any text in it is read back from its spelling exactly if it is the placeholder for options, an
option with an ASCII letter, or an option, a command or an argument with a name. So well-formed
atoms with the same spelling are the same. -/
theorem read_inverse :
    (∀ text atom, read text = .ok atom → atom.spelling = text) ∧
    (∀ atom, read atom.spelling = .ok atom ↔
      atom = .options ∨ (∃ letter, letter.isAlpha = true ∧ atom = .short letter) ∨
        ∃ name : String, isName name.toList = true ∧
          (atom = .long name ∨ atom = .command name ∨ atom = .argument name)) ∧
    ∀ first second : Atom, first.wellFormed = true → second.wellFormed = true →
      first.spelling = second.spelling → first = second := by
  refine ⟨fun text atom given => ?_, fun atom => ?_, fun first second one other same => ?_⟩
  · exact (read_eq_ok_iff.1 given).2.symm
  · rw [read_spelling_eq_ok, wellFormed_iff]
  · have read : read second.spelling = .ok first := same ▸ read_spelling one
    rw [read_spelling other] at read
    exact (Except.ok.inj read).symm

/-- A command that is spelled like a long option is read as that option and not as itself, and no
other well-formed atom is spelled so. A short option with a letter that is not an ASCII letter is
not read back either. -/
theorem read_inverse_overlap :
    (Atom.command "--x").spelling = "--x" ∧ read "--x" = .ok (.long "x") ∧
      read (Atom.command "--x").spelling ≠ .ok (.command "--x") ∧
      read (Atom.short 'é').spelling ≠ .ok (.short 'é') ∧
      ∀ atom : Atom, atom.wellFormed = true → atom.spelling = "--x" → atom = .long "x" := by
  have long : read "--x" = .ok (.long "x") :=
    read_eq_ok_iff.2 ⟨by decide +kernel, by decide +kernel⟩
  have command : (Atom.command "--x").spelling = "--x" := by decide +kernel
  have noLetter : 'é'.isAlpha = false := by decide
  obtain ⟨spells, back, injective⟩ := read_inverse
  refine ⟨command, long, fun same => ?_, fun same => ?_, fun atom formed same => ?_⟩
  · rw [command, long] at same
    exact absurd (Except.ok.inj same) (by decide)
  · obtain none | ⟨letter, isLetter, same⟩ | ⟨name, -, none⟩ := (back _).1 same
    · contradiction
    · obtain rfl := Atom.short.inj same
      rw [noLetter] at isLetter
      contradiction
    · simp at none
  · exact injective atom (.long "x") formed (wellFormed_of_read long)
      (same.trans (spells _ _ long).symm)

end Synopsis.Atom

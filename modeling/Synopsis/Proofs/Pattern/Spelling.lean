import Synopsis.Proofs.List
import Synopsis.Proofs.Pattern.Canonical
import Synopsis.Proofs.Text.Front

/-!
# Spellings of canonical patterns

The spelling of a pattern in the places where it may stand: by itself, between brackets, and
before an ellipsis. A canonical pattern that is no sequence begins with a character that only an
expression begins with, and no canonical pattern runs over the end of a line.
-/
namespace Synopsis.Pattern

open Text

/-- The spelling of a pattern between brackets, where a choice needs no further ones. -/
abbrev spellInside (pattern : Pattern Atom) : List Char := pattern.spellBare Atom.spell

/-- The spelling of a pattern before an ellipsis that is to reach all of it. -/
def spellUnit (pattern : Pattern Atom) : List Char :=
  parenthesize pattern.needsGroup pattern.spellInside

/-- Parts of a sequence after the first one, each after a space. -/
def spellLater (parts : List (Pattern Atom)) : List Char :=
  parts.flatMap fun part => ' ' :: part.spell

/-- Branches of a choice after the first one, each after a bar. -/
def spellBranches (branches : List (Pattern Atom)) : List Char :=
  branches.flatMap fun branch => ' ' :: '|' :: ' ' :: branch.spell

/-- A pattern that is no choice is spelled the same between brackets. -/
theorem spell_eq_spellInside {pattern : Pattern Atom} (other : pattern.isChoice = false) :
    pattern.spell = pattern.spellInside := by
  rw [spell, spellWith, parenthesize, other, if_neg Bool.false_ne_true]

/-- A repeated body stands before an ellipsis. -/
theorem spell_rep (body : Pattern Atom) : (rep body).spell = body.spellUnit ++ ['.', '.', '.'] := by
  rw [spell_eq_spellInside rfl, spellInside, spellBare, spellUnit]

/-- A sequence is spelled as its first part and its later ones. -/
theorem spellInside_seq (first : Pattern Atom) (later : List (Pattern Atom)) :
    (seq (first :: later)).spellInside = first.spell ++ spellLater later := by
  rw [spellInside, spellBare, spellAll_eq, List.map_cons, intercalate_cons_eq, List.flatMap_map]
  rfl

/-- The contents of a choice are its first branch and its later ones. -/
theorem spellInside_alt (first : Pattern Atom) (later : List (Pattern Atom)) :
    (alt (first :: later)).spellInside = first.spell ++ spellBranches later := by
  rw [spellInside, spellBare, spellAll_eq, List.map_cons, intercalate_cons_eq, List.flatMap_map]
  rfl

/-- A part is spelled within its sequence. -/
theorem length_spell_le_seq {first part : Pattern Atom} {later : List (Pattern Atom)}
    (mem : part ∈ first :: later) :
    part.spell.length ≤ (seq (first :: later)).spellInside.length := by
  rw [spellInside_seq, List.length_append]
  rcases List.mem_cons.1 mem with rfl | tail
  · omega
  · have within := length_le_length_flatMap_of_mem (fun part => ' ' :: part.spell) tail
    rw [List.length_cons] at within
    rw [spellLater]
    omega

/-- A branch is spelled within its choice. -/
theorem length_spell_le_alt {first branch : Pattern Atom} {later : List (Pattern Atom)}
    (mem : branch ∈ first :: later) :
    branch.spell.length ≤ (alt (first :: later)).spellInside.length := by
  rw [spellInside_alt, List.length_append]
  rcases List.mem_cons.1 mem with rfl | tail
  · omega
  · have within := length_le_length_flatMap_of_mem
      (fun branch => ' ' :: '|' :: ' ' :: branch.spell) tail
    simp only [List.length_cons] at within
    rw [spellBranches]
    omega

/-- A character with which the spelling of an expression may begin. -/
def beginsSpelling (c : Char) : Bool :=
  c.isAlphanum || c = '-' || c = '<' || c = '[' || c = '('

/-- The spelling of a canonical leaf begins like an expression. -/
theorem exists_first_of_leaf {atom : Atom} (canonical : CanonicalNode (.leaf atom)) :
    ∃ c later, atom.spell = c :: later ∧ beginsSpelling c = true := by
  obtain ⟨formed, -, -⟩ := canonical
  cases atom with
  | short letter => exact ⟨_, _, rfl, rfl⟩
  | long name => exact ⟨_, _, rfl, rfl⟩
  | command name =>
    obtain ⟨c, more, cut, first, -⟩ := exists_first_of_isName formed
    exact ⟨c, more, cut, by rw [beginsSpelling, first]; rfl⟩
  | argument name => exact ⟨_, _, rfl, rfl⟩
  | options => exact ⟨_, _, rfl, rfl⟩

/-- Before an ellipsis, the spelling of a canonical pattern begins like an expression. -/
theorem exists_first_of_spellUnit {pattern : Pattern Atom} (canonical : pattern.Canonical)
    (single : pattern.isRepeated = false) (filled : pattern ≠ .seq []) :
    ∃ c later, pattern.spellUnit = c :: later ∧ beginsSpelling c = true := by
  cases pattern with
  | leaf atom => exact exists_first_of_leaf (everywhere_leaf.1 canonical)
  | opt body => exact ⟨_, _, rfl, rfl⟩
  | alt branches => exact ⟨_, _, rfl, rfl⟩
  | rep body => exact absurd single.symm Bool.false_ne_true
  | seq parts =>
    have several := (everywhere_seq.1 canonical).1.1
    match parts with
    | [] => exact absurd rfl filled
    | [part] => exact absurd rfl several
    | first :: second :: later => exact ⟨_, _, rfl, rfl⟩

/-- The spelling of a canonical pattern that is no sequence begins like an expression. -/
theorem exists_first_of_spell {pattern : Pattern Atom} (canonical : pattern.Canonical)
    (other : pattern.isSequence = false) :
    ∃ c later, pattern.spell = c :: later ∧ beginsSpelling c = true := by
  cases pattern with
  | seq parts => exact absurd other.symm Bool.false_ne_true
  | rep body =>
    obtain ⟨⟨single, filled⟩, below⟩ := everywhere_rep.1 canonical
    obtain ⟨c, later, begins, first⟩ := exists_first_of_spellUnit below single filled
    exact ⟨c, later ++ ['.', '.', '.'], by rw [spell_rep, begins, List.cons_append], first⟩
  | leaf atom => exact exists_first_of_spellUnit canonical rfl (by simp)
  | opt body => exact exists_first_of_spellUnit canonical rfl (by simp)
  | alt branches => exact exists_first_of_spellUnit canonical rfl (by simp)

/-- No name runs over the end of a line. -/
theorem newline_not_mem_name {name : List Char} (named : isName name = true) : '\n' ∉ name := by
  obtain ⟨c, more, rfl, first, inside⟩ := exists_first_of_isName named
  intro mem
  rcases List.mem_cons.1 mem with rfl | later
  · exact absurd first (by decide)
  · exact absurd (inside _ later) (by decide)

/-- No well-formed atom runs over the end of a line. -/
theorem newline_not_mem_atom {atom : Atom} (formed : atom.wellFormed = true) :
    '\n' ∉ atom.spell := by
  cases atom with
  | short letter =>
    have other : '\n' ≠ letter := by rintro rfl; exact absurd formed (by decide)
    simp [Atom.spell, other]
  | long name => simpa [Atom.spell] using newline_not_mem_name formed
  | command name => exact newline_not_mem_name formed
  | argument name => simpa [Atom.spell] using newline_not_mem_name formed
  | options => decide

/-- Parentheses are no line feeds. -/
theorem newline_not_mem_parenthesize {needed : Bool} {text : List Char} (single : '\n' ∉ text) :
    '\n' ∉ parenthesize needed text := by
  cases needed with
  | false => exact single
  | true => simpa [parenthesize] using single

/-- A canonical pattern is spelled on one line. -/
theorem newline_not_mem_spellInside {pattern : Pattern Atom} (canonical : pattern.Canonical) :
    '\n' ∉ pattern.spellInside := by
  induction pattern with
  | leaf atom => exact newline_not_mem_atom (everywhere_leaf.1 canonical).1
  | opt body ih => simpa [spellBare] using ih (everywhere_opt.1 canonical).2
  | rep body ih =>
    have inside : '\n' ∉ parenthesize body.needsGroup body.spellInside :=
      newline_not_mem_parenthesize (ih (everywhere_rep.1 canonical).2)
    simpa [spellBare] using inside
  | seq parts ih =>
    have inside : ∀ part ∈ parts, '\n' ∉ part.spell := fun part mem =>
      newline_not_mem_parenthesize (ih part mem ((everywhere_seq.1 canonical).2 part mem))
    cases parts with
    | nil => simp [spellBare, spellAll]
    | cons first later =>
      simp only [List.forall_mem_cons] at inside
      simpa [spellInside_seq, spellLater, inside.1] using inside.2
  | alt branches ih =>
    have inside : ∀ branch ∈ branches, '\n' ∉ branch.spell := fun branch mem =>
      newline_not_mem_parenthesize (ih branch mem ((everywhere_alt.1 canonical).2 branch mem))
    cases branches with
    | nil => simp [spellBare, spellAll]
    | cons first later =>
      simp only [List.forall_mem_cons] at inside
      simpa [spellInside_alt, spellBranches, inside.1] using inside.2

end Synopsis.Pattern

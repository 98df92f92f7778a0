import Synopsis.Text.Name

/-!
# Atoms

An atom is the smallest part of a usage pattern: an option in its short or long form, a command
word, a positional argument, or the placeholder for every described option. Each atom has one
spelling, and reading accepts exactly the spellings of the atoms that are well formed.
-/
namespace Synopsis

/-- The smallest part of a usage pattern. -/
inductive Atom where
  /-- An option of one letter, such as `-v`. -/
  | short (letter : Char)
  /-- An option with a name, such as `--verbose`. -/
  | long (name : String)
  /-- A word that stands for itself. -/
  | command (name : String)
  /-- A positional argument, such as `<file>`. -/
  | argument (name : String)
  /-- Any of the described options. -/
  | options
deriving DecidableEq, Repr

namespace Atom

open Text (isName)

/-- Whether the atom is a short or a long option. -/
def isOption : Atom → Bool
  | .short _ => true
  | .long _ => true
  | _ => false

/-- The characters of the atom's spelling. -/
def spell : Atom → List Char
  | .short letter => ['-', letter]
  | .long name => '-' :: '-' :: name.toList
  | .command name => name.toList
  | .argument name => '<' :: name.toList ++ ['>']
  | .options => ['[', 'o', 'p', 't', 'i', 'o', 'n', 's', ']']

/-- The atom as it is written in a usage pattern. -/
def spelling (atom : Atom) : String := String.ofList atom.spell

/-- The text between an opening angle bracket, which is already read, and a closing one at the
very end. -/
def unbracket? (rest : List Char) : Option (List Char) :=
  if rest.getLast? = some '>' then some rest.dropLast else none

/-- The atom that has the given name, if it is a name. -/
def named? (make : String → Atom) (name : List Char) : Option Atom :=
  if isName name then some (make (String.ofList name)) else none

/-- The atom with the given spelling. -/
def ofSpell? (text : List Char) : Option Atom :=
  if text = Atom.options.spell then some .options
  else
    match text with
    | '-' :: '-' :: name => named? .long name
    | '-' :: rest =>
      match rest with
      | [letter] => if letter.isAlpha then some (.short letter) else none
      | _ => none
    | '<' :: rest =>
      match unbracket? rest with
      | some name => named? .argument name
      | none => none
    | _ => named? .command text

/-- The atom with the given spelling. -/
def ofSpelling? (text : String) : Option Atom := ofSpell? text.toList

/-- A short option is an ASCII letter, and every name is a name. -/
def wellFormed : Atom → Bool
  | .short letter => letter.isAlpha
  | .long name => isName name.toList
  | .command name => isName name.toList
  | .argument name => isName name.toList
  | .options => true

/-- The code points of the spelling's distinguishing part, after a number for the kind of atom.
Atoms are ordered by this key. -/
def key : Atom → List Nat
  | .short letter => [0, letter.toNat]
  | .long name => 1 :: name.toList.map Char.toNat
  | .command name => 2 :: name.toList.map Char.toNat
  | .argument name => 3 :: name.toList.map Char.toNat
  | .options => [4]

/-- Short options come first, then long options, commands, arguments and the placeholder; within
a kind, names are ordered by their code points. -/
instance : LT Atom := ⟨fun a b => a.key < b.key⟩

instance (a b : Atom) : Decidable (a < b) := inferInstanceAs (Decidable (a.key < b.key))

/-- Lists of code points determine their characters. -/
theorem codes_injective {first second : List Char}
    (same : first.map Char.toNat = second.map Char.toNat) : first = second :=
  List.map_inj_right (fun _ _ codes => Char.toNat_inj.1 codes) |>.1 same

/-- Different atoms have different keys. -/
theorem key_injective {a b : Atom} (same : a.key = b.key) : a = b := by
  cases a <;> cases b <;>
    simp only [key, List.cons.injEq, Nat.reduceEqDiff, false_and, reduceCtorEq, and_false, and_true,
      true_and] at same ⊢
  · rw [Char.toNat_inj.1 same]
  all_goals rw [String.toList_inj.1 (codes_injective same)]

/-- No atom is before itself. -/
theorem lt_irrefl (a : Atom) : ¬ a < a := List.lt_irrefl a.key

/-- The order of atoms is transitive. -/
theorem lt_trans {a b c : Atom} (first : a < b) (second : b < c) : a < c :=
  List.lt_trans (α := Nat) first second

/-- Of two different atoms, one is before the other. -/
theorem lt_of_not_lt {a b : Atom} (different : a ≠ b) (after : ¬ a < b) : b < a := by
  by_cases before : b < a
  · exact before
  · have same : a.key = b.key := List.le_antisymm (List.not_lt.1 before) (List.not_lt.1 after)
    exact absurd (key_injective same) different

end Atom

end Synopsis

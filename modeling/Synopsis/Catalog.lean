import Synopsis.Atom.Map
import Synopsis.Atom.Set
import Synopsis.Pattern.Repetition

/-!
# The catalog of atoms

The catalog says of each atom which other spellings mean the same option, which value stands in
when none is given, whether a value follows, and whether the atom may occur more than once.
-/
namespace Synopsis

/-- What is known about an atom. -/
structure Entry where
  /-- Every spelling of the same option, its own included; none if the option is not described. -/
  synonyms : AtomSet
  /-- The value that stands in when none is given. -/
  fallback : Option String
  /-- Whether a value follows the option. -/
  takesValue : Bool
  /-- Whether the atom may occur more than once. -/
  repeatable : Bool
deriving DecidableEq

/-- The entry of an atom of which nothing is known. -/
def Entry.blank : Entry := ⟨.empty, none, false, false⟩

/-- Entries by atom. -/
abbrev Catalog := AtomMap Entry

namespace Catalog

/-- The choice of all spellings of an option that has some in the catalog; any other atom stands
for itself. -/
def spellings (catalog : Catalog) (atom : Atom) : Pattern Atom :=
  if atom.isOption then
    match catalog.find? atom with
    | some entry =>
      if entry.synonyms.isEmpty then .leaf atom
      else .choice (entry.synonyms.toList.map .leaf)
    | none => .leaf atom
  else .leaf atom

/-- The catalog with the repeatability of one atom recorded, in a blank entry if it had none. -/
def record (catalog : Catalog) (atom : Atom) (repeatable : Bool) : Catalog :=
  catalog.insert atom { (catalog.find? atom).getD .blank with repeatable }

/-- The catalog with the repeatability of every leaf of a pattern recorded. All other entries,
and all other fields, stay. -/
def recordRepeats (catalog : Catalog) (pattern : Pattern Atom) : Catalog :=
  pattern.leaves.eraseDups.foldl
    (fun found atom => found.record atom (pattern.mayRepeat atom)) catalog

/-- Recording changes the entry of one atom and no other. -/
theorem find?_record (catalog : Catalog) (atom other : Atom) (repeatable : Bool) :
    (catalog.record atom repeatable).find? other =
      if other = atom then some { (catalog.find? atom).getD .blank with repeatable }
      else catalog.find? other :=
  AtomMap.find?_insert catalog atom other _

end Catalog

/-- The pattern in which every described option stands for all of its spellings. -/
def Pattern.expand (pattern : Pattern Atom) (catalog : Catalog) : Pattern Atom :=
  pattern.bind catalog.spellings

end Synopsis

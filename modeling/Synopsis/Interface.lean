import Synopsis.Catalog
import Synopsis.Pattern.Spelling

/-!
# The interface of a program

An interface is the pattern of a program's invocations together with the catalog of the atoms in
it. Assembling one from a pattern as written lets every option stand for all of its spellings and
records for every atom whether it may occur more than once.
-/
namespace Synopsis

/-- The ways to invoke a program, and what is known about the atoms in them. -/
structure Interface where
  /-- The ways to invoke the program. -/
  pattern : Pattern Atom
  /-- What is known about each atom. -/
  catalog : Catalog
deriving DecidableEq

namespace Interface

/-- The interface of a pattern as it is written and of the options as they are described. -/
def assemble (pattern : Pattern Atom) (catalog : Catalog) : Interface :=
  let expanded := pattern.expand catalog
  ⟨expanded, catalog.recordRepeats expanded⟩

/-- What is known about an atom. -/
def entry? (interface : Interface) (atom : Atom) : Option Entry := interface.catalog.find? atom

end Interface

end Synopsis

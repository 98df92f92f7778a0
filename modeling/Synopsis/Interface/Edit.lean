import Synopsis.Interface

/-!
# Changes to an interface

An edit is one change to an interface: to its pattern, to its catalog, or to both. Edits that
build a larger pattern around the present one never leave a group with a single child at its root.
-/
namespace Synopsis

/-- Replacements for atoms: the first row with an atom gives its replacement. -/
abbrev Substitution := List (Atom × Pattern Atom)

namespace Substitution

/-- The replacement of an atom; an atom without a row stands for itself. -/
def apply : Substitution → Atom → Pattern Atom
  | [], atom => .leaf atom
  | (replaced, replacement) :: later, atom =>
    if atom = replaced then replacement else apply later atom

end Substitution

/-- A change to an interface. -/
inductive Edit where
  /-- Let every described option stand for all of its spellings. -/
  | expand
  /-- Record for every leaf whether it may occur more than once. -/
  | recordRepeats
  /-- Do both, in this order. -/
  | assemble
  /-- Replace a root with a single child by that child. -/
  | collapse
  /-- Make the pattern optional. -/
  | optional
  /-- Let the pattern be repeated. -/
  | repeated
  /-- Let further patterns follow. -/
  | followBy (later : List (Pattern Atom))
  /-- Add further branches beside the pattern. -/
  | orElse (others : List (Pattern Atom))
  /-- Replace every leaf. -/
  | replace (replacement : Atom → Pattern Atom)
  /-- Give an atom an entry, instead of the one it has. -/
  | describe (atom : Atom) (entry : Entry)
  /-- Take away the entry of an atom. -/
  | forget (atom : Atom)

namespace Interface

/-- The interface after a change. -/
def edit (interface : Interface) : Edit → Interface
  | .expand => { interface with pattern := interface.pattern.expand interface.catalog }
  | .recordRepeats =>
    { interface with catalog := interface.catalog.recordRepeats interface.pattern }
  | .assemble => assemble interface.pattern interface.catalog
  | .collapse => { interface with pattern := interface.pattern.collapse }
  | .optional => { interface with pattern := .opt interface.pattern }
  | .repeated => { interface with pattern := .rep interface.pattern }
  | .followBy later => { interface with pattern := .sequence (interface.pattern :: later) }
  | .orElse others => { interface with pattern := .choice (interface.pattern :: others) }
  | .replace replacement => { interface with pattern := interface.pattern.bind replacement }
  | .describe atom entry =>
    { interface with catalog := interface.catalog.insert atom entry }
  | .forget atom => { interface with catalog := interface.catalog.erase atom }

end Interface

end Synopsis

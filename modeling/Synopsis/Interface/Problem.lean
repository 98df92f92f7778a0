import Synopsis.Interface

/-!
# Problems of an interface

An interface that was put together by hand, or read from a file, need not have the shape that
assembling gives. The problems are listed in a fixed order: groups with a single child from the
root downwards, then leaves without an entry, then what is wrong with the synonyms, by key and
synonym. Each is listed once.
-/
namespace Synopsis

/-- Something wrong with an interface. -/
inductive Problem where
  /-- A sequence or choice has a single child. -/
  | soleChild (group : Pattern Atom)
  /-- A leaf of the pattern has no entry. -/
  | noEntry (atom : Atom)
  /-- A synonym listed in the entry of a key has no entry. -/
  | noSynonymEntry (key synonym : Atom)
  /-- Of two atoms, one is listed as a synonym of the other, but their synonyms differ. -/
  | unequalSynonyms (first second : Atom)
deriving DecidableEq

namespace Problem

/-- The problem in words. -/
def message : Problem → String
  | .soleChild group => "singleton group not flattened: " ++ group.spelling
  | .noEntry atom => "no metadata for atom: " ++ atom.spelling
  | .noSynonymEntry key synonym =>
    "synonym " ++ synonym.spelling ++ " of " ++ key.spelling ++ " has no metadata"
  | .unequalSynonyms first second =>
    "synonym groups of " ++ first.spelling ++ " and " ++ second.spelling ++ " differ"

end Problem

namespace Pattern

mutual

/-- The sequences and choices with a single child, outer ones first, from left to right. -/
def soleChildren {α : Type} : Pattern α → List (Pattern α)
  | .seq parts => (if parts.length = 1 then [.seq parts] else []) ++ soleChildrenOf parts
  | .alt branches =>
    (if branches.length = 1 then [.alt branches] else []) ++ soleChildrenOf branches
  | .opt body => soleChildren body
  | .rep body => soleChildren body
  | .leaf _ => []

/-- The sequences and choices with a single child in the patterns of a list. -/
def soleChildrenOf {α : Type} : List (Pattern α) → List (Pattern α)
  | [] => []
  | first :: later => soleChildren first ++ soleChildrenOf later

end

end Pattern

namespace Interface

/-- What is wrong with one synonym in the entry of a key. -/
def synonymProblem (catalog : Catalog) (key : Atom) (entry : Entry) (synonym : Atom) :
    Option Problem :=
  match catalog.find? synonym with
  | none => some (.noSynonymEntry key synonym)
  | some other =>
    if other.synonyms = entry.synonyms then none
    else if key < synonym then some (.unequalSynonyms key synonym)
    else some (.unequalSynonyms synonym key)

/-- What is wrong with the synonyms of a catalog, each problem as often as it is met. -/
def synonymProblems (catalog : Catalog) : List Problem :=
  catalog.toList.flatMap fun (key, entry) =>
    entry.synonyms.toList.filterMap (synonymProblem catalog key entry)

/-- All problems of an interface. -/
def problems (interface : Interface) : List Problem :=
  interface.pattern.soleChildren.map .soleChild ++
    ((interface.pattern.leaves.filter fun atom => !interface.catalog.contains atom).eraseDups.map
      .noEntry) ++
    (synonymProblems interface.catalog).eraseDups

end Interface

end Synopsis

import Synopsis.Json.Value
import Synopsis.Manual

/-!
# Stored values

Interfaces and manuals are stored as JSON. A node of a pattern is a record whose only key tells
its kind, and an atom is its spelling, also as a key of the catalog. Interfaces, entries and
manuals are records. Two keys of a catalog with one spelling are both written.
-/
namespace Synopsis

open Json

namespace Stored

/-- An atom is stored as its spelling. -/
def ofAtom (atom : Atom) : Value := .string atom.spell

/-- A default value is stored as a string, and its absence as nothing. -/
def ofFallback : Option String → Value
  | none => .null
  | some text => .string text.toList

/-- The key of a sequence. -/
def sequenceKey : String := "Sequence"
/-- The key of a choice. -/
def choiceKey : String := "OneOf"
/-- The key of an optional body. -/
def optionalKey : String := "Optional"
/-- The key of a repeated body. -/
def repeatedKey : String := "Repeated"
/-- The key of a leaf. -/
def leafKey : String := "Atom"
/-- The key of an entry's synonyms. -/
def synonymsKey : String := "synonyms"
/-- The key of an entry's default value. -/
def fallbackKey : String := "default_val"
/-- The key of whether a value follows. -/
def takesValueKey : String := "expects_val"
/-- The key of whether an atom may occur more than once. -/
def repeatableKey : String := "is_repeated"
/-- The key of an interface's pattern. -/
def patternKey : String := "pattern"
/-- The key of an interface's catalog. -/
def catalogKey : String := "infos"
/-- The key of a manual's text. -/
def textKey : String := "usage"
/-- The key of a manual's interface. -/
def interfaceKey : String := "format"

mutual

/-- A pattern as it is stored. -/
def ofPattern : Pattern Atom → Value
  | .seq parts => .record [(sequenceKey.toList, .list (ofPatterns parts))]
  | .alt branches => .record [(choiceKey.toList, .list (ofPatterns branches))]
  | .opt body => .record [(optionalKey.toList, ofPattern body)]
  | .rep body => .record [(repeatedKey.toList, ofPattern body)]
  | .leaf atom => .record [(leafKey.toList, ofAtom atom)]

/-- Patterns as they are stored. -/
def ofPatterns : List (Pattern Atom) → List Value
  | [] => []
  | first :: later => ofPattern first :: ofPatterns later

end

/-- An entry as it is stored. -/
def ofEntry (entry : Entry) : Value :=
  .record
    [(synonymsKey.toList, .list (entry.synonyms.toList.map ofAtom)),
      (fallbackKey.toList, ofFallback entry.fallback),
      (takesValueKey.toList, .truth entry.takesValue),
      (repeatableKey.toList, .truth entry.repeatable)]

/-- A catalog as it is stored. -/
def ofCatalog (catalog : Catalog) : Value :=
  .record (catalog.toList.map fun (atom, entry) => (atom.spell, ofEntry entry))

/-- An interface as it is stored. -/
def ofInterface (interface : Interface) : Value :=
  .record
    [(patternKey.toList, ofPattern interface.pattern),
      (catalogKey.toList, ofCatalog interface.catalog)]

/-- A manual as it is stored. -/
def ofManual (manual : Manual) : Value :=
  .record
    [(textKey.toList, .string manual.text.toList),
      (interfaceKey.toList, ofInterface manual.interface)]

end Stored

/-- The interface as indented JSON. -/
def Interface.toJson (interface : Interface) : String :=
  (Stored.ofInterface interface).text .indented

/-- The manual as JSON on one line. -/
def Manual.toJson (manual : Manual) : String := (Stored.ofManual manual).text .compact

end Synopsis

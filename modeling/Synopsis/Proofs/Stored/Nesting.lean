import Synopsis.Proofs.Json.Value
import Synopsis.Stored.Value

/-!
# How deeply stored values are nested

A sequence or choice takes two levels of brackets and braces, since its children are a list in a
record; every other node takes one. The catalog never takes more than three.
-/
namespace Synopsis

namespace Pattern

variable {α : Type}

mutual

/-- The levels of brackets and braces that a pattern takes. -/
def levels : Pattern α → Nat
  | .seq parts => 2 + levelsOf parts
  | .alt branches => 2 + levelsOf branches
  | .opt body => 1 + levels body
  | .rep body => 1 + levels body
  | .leaf _ => 1

/-- The levels that the deepest pattern of a list takes. -/
def levelsOf : List (Pattern α) → Nat
  | [] => 0
  | first :: later => max (levels first) (levelsOf later)

end

/-- The deepest pattern takes no more levels than each may. -/
theorem levelsOf_le {bound : Nat} {patterns : List (Pattern α)}
    (each : ∀ pattern ∈ patterns, pattern.levels ≤ bound) : levelsOf patterns ≤ bound := by
  induction patterns with
  | nil => exact Nat.zero_le bound
  | cons first later ih =>
    obtain ⟨one, more⟩ := List.forall_mem_cons.1 each
    rw [levelsOf]
    exact Nat.max_le.2 ⟨one, ih more⟩

end Pattern

namespace Stored

open Json

/-- A record with a single field is one level deeper than its value. -/
theorem nesting_record_one (key : List Char) (value : Value) :
    (Value.record [(key, value)]).nesting = 1 + value.nesting := by
  rw [Value.nesting, Value.nestingOfFields, Value.nestingOfFields, Nat.max_zero]

mutual

/-- A stored pattern is nested as deeply as it has levels. -/
theorem nesting_ofPattern : ∀ pattern : Pattern Atom, (ofPattern pattern).nesting = pattern.levels
  | .seq parts => by
    rw [ofPattern, nesting_record_one, Value.nesting, nestingOfMembers_ofPatterns parts,
      Pattern.levels, ← Nat.add_assoc]
  | .alt branches => by
    rw [ofPattern, nesting_record_one, Value.nesting, nestingOfMembers_ofPatterns branches,
      Pattern.levels, ← Nat.add_assoc]
  | .opt body => by rw [ofPattern, nesting_record_one, nesting_ofPattern body, Pattern.levels]
  | .rep body => by rw [ofPattern, nesting_record_one, nesting_ofPattern body, Pattern.levels]
  | .leaf _ => rfl

/-- Stored patterns are nested as deeply as the deepest one has levels. -/
theorem nestingOfMembers_ofPatterns : ∀ patterns : List (Pattern Atom),
    Value.nestingOfMembers (ofPatterns patterns) = Pattern.levelsOf patterns
  | [] => rfl
  | first :: later => by
    rw [ofPatterns, Value.nestingOfMembers, nesting_ofPattern first,
      nestingOfMembers_ofPatterns later, Pattern.levelsOf]

end

/-- A stored entry has two levels. -/
theorem nesting_ofEntry (entry : Entry) : (ofEntry entry).nesting = 2 := by
  have atoms : ∀ synonyms : List Atom, Value.nestingOfMembers (synonyms.map ofAtom) = 0 := by
    intro synonyms
    induction synonyms with
    | nil => rfl
    | cons first later ih => rw [List.map_cons, Value.nestingOfMembers, ih, ofAtom, Value.nesting,
        Nat.max_zero]
  have fallback : (ofFallback entry.fallback).nesting = 0 := by cases entry.fallback <;> rfl
  simp only [ofEntry, Value.nesting, Value.nestingOfFields, atoms, fallback]
  rfl

/-- A stored catalog has three levels at most. -/
theorem nesting_ofCatalog_le (catalog : Catalog) : (ofCatalog catalog).nesting ≤ 3 := by
  rw [ofCatalog, Value.nesting]
  generalize catalog.toList = entries
  induction entries with
  | nil => exact Nat.le_of_ble_eq_true rfl
  | cons first later ih =>
    rw [List.map_cons, Value.nestingOfFields, nesting_ofEntry]
    omega

/-- A stored interface is one level deeper than its pattern and its catalog. -/
theorem nesting_ofInterface (interface : Interface) :
    (ofInterface interface).nesting =
      1 + max interface.pattern.levels (ofCatalog interface.catalog).nesting := by
  rw [ofInterface, Value.nesting, Value.nestingOfFields, Value.nestingOfFields,
    Value.nestingOfFields, nesting_ofPattern, Nat.max_zero]

/-- A stored manual is one level deeper than its interface. -/
theorem nesting_ofManual (manual : Manual) :
    (ofManual manual).nesting = 1 + (ofInterface manual.interface).nesting := by
  rw [ofManual, Value.nesting, Value.nestingOfFields, Value.nestingOfFields, Value.nestingOfFields,
    Value.nesting, Nat.max_zero, Nat.zero_max]

end Stored

end Synopsis

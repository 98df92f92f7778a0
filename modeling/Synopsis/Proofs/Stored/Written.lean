import Synopsis.Proofs.Atom.Map
import Synopsis.Proofs.Atom.Set
import Synopsis.Proofs.Json.Form
import Synopsis.Proofs.Stored.Nesting
import Synopsis.Stored.Form

/-!
# Stored values taken back

The tokens of a stored value are taken back as what was stored, as long as its atoms are well
formed and there is room for its brackets and braces.
-/
namespace Synopsis

/-- The atoms of an interface: the leaves of its pattern, the keys of its catalog, and the synonyms
in the entries. -/
def Interface.atoms (interface : Interface) : List Atom :=
  interface.pattern.leaves ++
    interface.catalog.toList.flatMap fun (key, entry) => key :: entry.synonyms.toList

/-- What holds of the atoms of an interface holds of its leaves, keys and synonyms. -/
theorem Interface.forall_atoms {interface : Interface} {holds : Atom → Prop} :
    (∀ atom ∈ interface.atoms, holds atom) ↔
      (∀ atom ∈ interface.pattern.leaves, holds atom) ∧
      ∀ listed ∈ interface.catalog.toList,
        holds listed.1 ∧ ∀ synonym ∈ listed.2.synonyms, holds synonym := by
  simp only [atoms, List.forall_mem_append, List.forall_mem_flatMap, List.forall_mem_cons,
    AtomSet.mem_toList]

namespace Stored

open Json Form

variable {α β : Type}

/-- The value of the only field of a record is taken with the closing brace. -/
theorem takes_lastField {make : α → β} {value : Form α} {tokens : List Token} {found : α}
    (takes : Takes value tokens found) :
    Takes (lastField make value) (tokens ++ [.closeRecord]) (make found) := by
  intro rest
  rw [List.append_assoc]
  exact bind_ok_iff.2 ⟨_, takes _, rfl⟩

/-- The tokens of a record with a single field. -/
theorem tokens_record_one (key : List Char) (value : Value) :
    (Value.record [(key, value)]).tokens =
      .openRecord :: .string (some key) :: .colon :: (value.tokens ++ [.closeRecord]) := by
  rw [Value.tokens, Value.fieldTokens, Value.fieldTokens, Value.joined, List.flatMap_nil,
    List.append_nil, List.cons_append, List.cons_append, List.cons_append]

/-- A node of a pattern is taken back if its key gives a form that takes its value. -/
theorem takes_node {make : α → Pattern Atom} {key : List Char} {value : Value} {form : Form α}
    {found : α} {room : Nat}
    (keyed : ∀ rest,
      Stored.pattern (room + 1) (.openRecord :: .string (some key) :: .colon :: rest) =
        lastField make form rest) (takes : Takes form value.tokens found) :
    Takes (Stored.pattern (room + 1)) (Value.record [(key, value)]).tokens (make found) := by
  intro rest
  rw [tokens_record_one, List.cons_append, List.cons_append, List.cons_append, keyed]
  exact takes_lastField takes rest

/-- Whether a pattern is taken back where its levels fit, if its leaves are well formed. -/
def TakenBack (pattern : Pattern Atom) : Prop :=
  (∀ atom ∈ pattern.leaves, atom.wellFormed = true) → ∀ {room : Nat}, pattern.levels ≤ room →
    Takes (Stored.pattern room) (ofPattern pattern).tokens pattern

/-- A list of patterns is taken back if each of them is. -/
theorem takes_patterns {patterns : List (Pattern Atom)} (each : ∀ child ∈ patterns, TakenBack child)
    (formed : ∀ atom ∈ Pattern.leavesOf patterns, atom.wellFormed = true) {room : Nat}
    (fits : Pattern.levelsOf patterns ≤ room) :
    Takes (Stored.patterns (room + 1)) (Value.list (ofPatterns patterns)).tokens patterns := by
  refine takes_list ?_
  induction patterns with
  | nil => exact .nil
  | cons first later ih =>
    obtain ⟨one, more⟩ := List.forall_mem_cons.1 each
    obtain ⟨formedFirst, formedLater⟩ := List.forall_mem_append.1 formed
    obtain ⟨fitsFirst, fitsLater⟩ := Nat.max_le.1 fits
    exact .cons (one formedFirst fitsFirst) (ih more formedLater fitsLater)

/-- A stored pattern is taken back where its levels fit. -/
theorem takes_pattern (pattern : Pattern Atom) : TakenBack pattern := by
  induction pattern with
  | leaf atom =>
    intro formed room fits
    obtain ⟨room, rfl⟩ := Nat.exists_eq_add_of_le' fits
    have one : atom.wellFormed = true := formed atom (List.mem_singleton.2 rfl)
    exact takes_node (fun _ => rfl) (takes_atom one)
  | opt body ih =>
    intro formed room fits
    rw [Pattern.levels] at fits
    obtain ⟨room, rfl⟩ := Nat.exists_eq_add_of_le' (Nat.le_of_add_right_le fits)
    exact takes_node (fun _ => rfl) (ih formed (by omega))
  | rep body ih =>
    intro formed room fits
    rw [Pattern.levels] at fits
    obtain ⟨room, rfl⟩ := Nat.exists_eq_add_of_le' (Nat.le_of_add_right_le fits)
    exact takes_node (fun _ => rfl) (ih formed (by omega))
  | seq parts ih =>
    intro formed room fits
    rw [Pattern.levels] at fits
    obtain ⟨room, rfl⟩ := Nat.exists_eq_add_of_le' (Nat.le_of_add_right_le fits)
    exact takes_node (fun _ => rfl) (takes_patterns ih formed (by omega))
  | alt branches ih =>
    intro formed room fits
    rw [Pattern.levels] at fits
    obtain ⟨room, rfl⟩ := Nat.exists_eq_add_of_le' (Nat.le_of_add_right_le fits)
    exact takes_node (fun _ => rfl) (takes_patterns ih formed (by omega))

/-- Stored synonyms are taken back. -/
theorem takes_synonyms {set : AtomSet} (formed : ∀ atom ∈ set, atom.wellFormed = true)
    (room : Nat) :
    Takes (Stored.synonyms (room + 1)) (Value.list (set.toList.map ofAtom)).tokens set := by
  have each : ∀ {atoms : List Atom}, (∀ atom ∈ atoms, atom.wellFormed = true) →
      List.Forall₂ (fun value one => Takes Form.atom value.tokens one)
        (atoms.map ofAtom) atoms := by
    intro atoms formed
    induction atoms with
    | nil => exact .nil
    | cons first later ih =>
      obtain ⟨one, more⟩ := List.forall_mem_cons.1 formed
      exact .cons (takes_atom one) (ih more)
  intro rest
  refine bind_ok_iff.2 ⟨_, takes_list (each formed) rest, ?_⟩
  simp only [AtomSet.ofList_toList]

/-- A stored default value, or its absence, is taken back. -/
theorem takes_fallback (fallback : Option String) :
    Takes Form.string? (ofFallback fallback).tokens fallback := by
  cases fallback with
  | none => exact fun _ => rfl
  | some text =>
    intro rest
    refine bind_ok_iff.2 ⟨_, takes_string text.toList rest, ?_⟩
    rw [String.ofList_toList]

/-- A stored entry is taken back. -/
theorem takes_entry {entry : Entry} (formed : ∀ atom ∈ entry.synonyms, atom.wellFormed = true)
    (room : Nat) : Takes (Stored.entry (room + 2)) (ofEntry entry).tokens entry := by
  have fills : Fills (EntryDraft.field (room + 1)) ⟨none, none, none, none⟩
      [(synonymsKey.toList, .list (entry.synonyms.toList.map ofAtom)),
        (fallbackKey.toList, ofFallback entry.fallback),
        (takesValueKey.toList, .truth entry.takesValue),
        (repeatableKey.toList, .truth entry.repeatable)]
      ⟨some entry.synonyms, some entry.fallback, some entry.takesValue,
        some entry.repeatable⟩ := by
    refine fills_once (if_pos rfl) (takes_synonyms formed room) ?_
    refine fills_once ((if_neg (by decide)).trans <| if_pos rfl)
      (takes_fallback entry.fallback) ?_
    refine fills_once ((if_neg (by decide)).trans <| (if_neg (by decide)).trans <| if_pos rfl)
      (takes_truth entry.takesValue) ?_
    exact fills_once ((if_neg (by decide)).trans <| (if_neg (by decide)).trans <|
      (if_neg (by decide)).trans <| if_pos rfl) (takes_truth entry.repeatable) (.done _)
  intro rest
  exact bind_ok_iff.2 ⟨_, takes_record fills rest, rfl⟩

/-- A stored catalog is taken back. -/
theorem takes_catalog {catalog : Catalog}
    (formed : ∀ listed ∈ catalog.toList, listed.1.wellFormed = true ∧
      ∀ synonym ∈ listed.2.synonyms, synonym.wellFormed = true) (room : Nat) :
    Takes (Stored.catalog (room + 3)) (ofCatalog catalog).tokens catalog := by
  have fills : ∀ (later : List (Atom × Entry)) (known : Catalog),
      (∀ listed ∈ later, listed.1.wellFormed = true ∧
        ∀ synonym ∈ listed.2.synonyms, synonym.wellFormed = true) →
      Fills (catalogField (room + 2)) known
        (later.map fun (atom, entry) => (atom.spell, ofEntry entry))
        (later.foldl (fun map entry => map.insert entry.1 entry.2) known) := by
    intro later
    induction later with
    | nil => exact fun known _ => .done known
    | cons first later ih =>
      intro known formed
      obtain ⟨⟨key, synonyms⟩, more⟩ := List.forall_mem_cons.1 formed
      have read : Atom.read (String.ofList first.1.spell) = .ok first.1 := Atom.read_spelling key
      refine .next (by rw [catalogField, read]) (fun rest => ?_) (ih _ more)
      exact bind_ok_iff.2 ⟨_, takes_entry synonyms room rest, rfl⟩
  intro rest
  have taken := takes_record (fills catalog.toList .empty formed) rest
  rw [← AtomMap.ofList, AtomMap.ofList_toList] at taken
  exact taken

/-- A stored interface is taken back where its levels fit. -/
theorem takes_interface {interface : Interface}
    (formed : ∀ atom ∈ interface.atoms, atom.wellFormed = true) {room : Nat}
    (fits : interface.pattern.levels ≤ room) (atLeast : 3 ≤ room) :
    Takes (Stored.interface (room + 1)) (ofInterface interface).tokens interface := by
  obtain ⟨leaves, entries⟩ := Interface.forall_atoms.1 formed
  obtain ⟨more, rfl⟩ := Nat.exists_eq_add_of_le' atLeast
  have fills : Fills (InterfaceDraft.field (more + 3)) ⟨none, none⟩
      [(patternKey.toList, ofPattern interface.pattern),
        (catalogKey.toList, ofCatalog interface.catalog)]
      ⟨some interface.pattern, some interface.catalog⟩ := by
    refine fills_once (if_pos rfl) (takes_pattern interface.pattern leaves fits) ?_
    exact fills_once ((if_neg (by decide)).trans <| if_pos rfl) (takes_catalog entries more)
      (.done _)
  intro rest
  exact bind_ok_iff.2 ⟨_, takes_record fills rest, rfl⟩

/-- A stored manual is taken back where the levels of its interface fit. -/
theorem takes_manual {manual : Manual}
    (formed : ∀ atom ∈ manual.interface.atoms, atom.wellFormed = true) {room : Nat}
    (fits : manual.interface.pattern.levels ≤ room) (atLeast : 3 ≤ room) :
    Takes (Stored.manual (room + 2)) (ofManual manual).tokens manual := by
  have text : Takes Form.string (Value.string manual.text.toList).tokens manual.text := by
    have taken := takes_string manual.text.toList
    rw [String.ofList_toList] at taken
    exact taken
  have fills : Fills (ManualDraft.field (room + 1)) ⟨none, none⟩
      [(textKey.toList, .string manual.text.toList),
        (interfaceKey.toList, ofInterface manual.interface)]
      ⟨some manual.text, some manual.interface⟩ := by
    refine fills_once (if_pos rfl) text ?_
    exact fills_once ((if_neg (by decide)).trans <| if_pos rfl)
      (takes_interface formed fits atLeast) (.done _)
  intro rest
  exact bind_ok_iff.2 ⟨_, takes_record fills rest, rfl⟩

end Stored

end Synopsis

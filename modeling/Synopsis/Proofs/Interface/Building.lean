import Synopsis.Interface.Edit
import Synopsis.Proofs.Interface.Problem
import Synopsis.Proofs.Pattern.InTurn
import Synopsis.Proofs.Pattern.Language

/-!
# Building patterns

Patterns are built step by step: put among others, wrapped, collapsed, with leaves replaced or
expanded. Each step makes a flat pattern of a flat one, so a pattern that is built from a flat one
is flat however long its history is, and no problem of an interface with this pattern is a group
with a single child. The building functions that collapse a group describe the words that the
group describes, also where their operands are not flat.
-/
namespace Synopsis

/-- One step that builds a pattern from another one; further patterns that it takes are flat. The
type of the leaves may change. -/
inductive Pattern.Step : {α β : Type} → Pattern α → Pattern β → Prop where
  /-- Put the pattern in order with others. -/
  | sequence {α : Type} (pattern : Pattern α) (before later : List (Pattern α))
      (flat : ∀ other ∈ before ++ later, other.Flat) :
      Step pattern (.sequence (before ++ pattern :: later))
  /-- Put the pattern in a choice with others. -/
  | choice {α : Type} (pattern : Pattern α) (before later : List (Pattern α))
      (flat : ∀ other ∈ before ++ later, other.Flat) :
      Step pattern (.choice (before ++ pattern :: later))
  /-- Make the pattern optional. -/
  | optional {α : Type} (pattern : Pattern α) : Step pattern (.opt pattern)
  /-- Let the pattern be repeated. -/
  | repeated {α : Type} (pattern : Pattern α) : Step pattern (.rep pattern)
  /-- Replace a root with a single child by that child. -/
  | collapse {α : Type} (pattern : Pattern α) : Step pattern pattern.collapse
  /-- Replace every leaf. -/
  | bind {α β : Type} (pattern : Pattern α) (f : α → Pattern β) (flat : ∀ atom, (f atom).Flat) :
      Step pattern (pattern.bind f)
  /-- Replace every leaf in turn. -/
  | bindInTurn {α β σ : Type} (pattern : Pattern α) (f : σ → α → Pattern β × σ) (state : σ)
      (flat : ∀ state atom, (f state atom).1.Flat) :
      Step pattern (Pattern.bindInTurn f state pattern).1
  /-- Let every described option stand for all of its spellings. -/
  | expand (pattern : Pattern Atom) (catalog : Catalog) : Step pattern (pattern.expand catalog)
  /-- Assemble an interface. -/
  | assemble (pattern : Pattern Atom) (catalog : Catalog) :
      Step pattern (Interface.assemble pattern catalog).pattern

/-- A pattern that finitely many steps build from a first one. -/
inductive Pattern.Built {α : Type} (first : Pattern α) : {β : Type} → Pattern β → Prop where
  /-- The first pattern is there. -/
  | first : Built first first
  /-- One more step. -/
  | step {β γ : Type} {before : Pattern β} {after : Pattern γ} (built : Built first before)
      (step : Step before after) : Built first after

namespace Pattern

variable {α β : Type}

/-- A pattern put among flat ones is flat with them. -/
theorem forall_flat_insert {pattern : Pattern α} {before later : List (Pattern α)}
    (flat : pattern.Flat) (others : ∀ other ∈ before ++ later, other.Flat) :
    ∀ child ∈ before ++ pattern :: later, child.Flat := by
  intro child mem
  rcases List.mem_append.1 mem with front | back
  · exact others child (List.mem_append_left later front)
  · rcases List.mem_cons.1 back with rfl | behind
    · exact flat
    · exact others child (List.mem_append_right before behind)

/-- One step builds a flat pattern from a flat one. -/
theorem Step.flat {before : Pattern α} {after : Pattern β} (step : Step before after)
    (flat : before.Flat) : after.Flat := by
  cases step with
  | sequence pattern before later others => exact flat_sequence (forall_flat_insert flat others)
  | choice pattern before later others => exact flat_choice (forall_flat_insert flat others)
  | optional pattern => exact everywhere_opt.2 ⟨rfl, flat⟩
  | repeated pattern => exact everywhere_rep.2 ⟨rfl, flat⟩
  | collapse pattern => exact flat_collapse flat
  | bind pattern f replaced => exact flat_bind flat replaced
  | bindInTurn pattern f state replaced => exact flat_bindInTurn replaced state before flat
  | expand pattern catalog => exact flat_bind flat catalog.flat_spellings
  | assemble pattern catalog => exact Interface.flat_assemble flat catalog

/-- What is built from a flat pattern is flat. -/
theorem Built.flat {first : Pattern α} {pattern : Pattern β} (built : Built first pattern)
    (flat : first.Flat) : pattern.Flat := by
  induction built with
  | first => exact flat
  | step built step ih => exact step.flat ih

end Pattern

/-- The further patterns that a change takes are flat. -/
def Edit.Flat : Edit → Prop
  | .followBy others | .orElse others => ∀ other ∈ others, other.Flat
  | .replace replacement => ∀ atom, (replacement atom).Flat
  | _ => True

namespace Interface

/-- A change to an interface leaves its pattern or is a step that builds from it. -/
theorem step_edit (interface : Interface) {change : Edit} (flat : change.Flat) :
    (interface.edit change).pattern = interface.pattern ∨
      Pattern.Step interface.pattern (interface.edit change).pattern := by
  cases change with
  | expand => exact .inr (.expand interface.pattern interface.catalog)
  | recordRepeats => exact .inl rfl
  | assemble => exact .inr (.assemble interface.pattern interface.catalog)
  | collapse => exact .inr (.collapse interface.pattern)
  | optional => exact .inr (.optional interface.pattern)
  | repeated => exact .inr (.repeated interface.pattern)
  | followBy later => exact .inr (.sequence interface.pattern [] later flat)
  | orElse others => exact .inr (.choice interface.pattern [] others flat)
  | replace replacement => exact .inr (.bind interface.pattern replacement flat)
  | describe atom entry => exact .inl rfl
  | forget atom => exact .inl rfl

/-- Changes to an interface one after the other build from its pattern. -/
theorem built_edits {α : Type} {first : Pattern α} {interface : Interface}
    (built : first.Built interface.pattern) {changes : List Edit}
    (flat : ∀ change ∈ changes, change.Flat) :
    first.Built (changes.foldl edit interface).pattern := by
  induction changes generalizing interface with
  | nil => exact built
  | cons change later ih =>
    have ⟨one, others⟩ := List.forall_mem_cons.1 flat
    refine ih ?_ others
    rcases interface.step_edit one with same | step
    · rw [same]
      exact built
    · exact .step built step

/-- What is built from a flat pattern is flat, so no group with a single child is a problem of an
interface with such a pattern, nor after changes to one; and collapsing a pattern, or building a
sequence or a choice of any patterns, describes the words of the group that is not collapsed. -/
theorem building_keeps_flat {α : Type} {first : Pattern α} (flat : first.Flat) :
    (∀ {β : Type} {pattern : Pattern β}, first.Built pattern → pattern.Flat) ∧
    (∀ {interface : Interface}, first.Built interface.pattern →
      ∀ changes : List Edit, (∀ change ∈ changes, change.Flat) →
      ∀ group, .soleChild group ∉ (changes.foldl edit interface).problems) ∧
    (∀ {β : Type} (pattern : Pattern β), pattern.collapse.language = pattern.language) ∧
    (∀ {β : Type} (parts : List (Pattern β)),
      (Pattern.sequence parts).language = (Pattern.seq parts).language ∧
      (Pattern.seq parts).language = (parts.map Pattern.language).prod) ∧
    (∀ {β : Type} (branches : List (Pattern β)),
      (Pattern.choice branches).language = (Pattern.alt branches).language ∧
      (Pattern.alt branches).language = (branches.map Pattern.language).sum) := by
  refine ⟨fun built => built.flat flat, fun built changes each group problem => ?_,
    Pattern.language_collapse,
    fun parts => ⟨Pattern.language_collapse (.seq parts), Pattern.language_seq parts⟩,
    fun branches => ⟨Pattern.language_collapse (.alt branches), Pattern.language_alt branches⟩⟩
  have after := (built_edits built each).flat flat
  rw [soleChild_mem_problems, Pattern.soleChildren_eq_nil.2 after] at problem
  contradiction

/-- Two letters of which the second one may be left out. -/
def letters : Pattern Char := .seq [.leaf 'v', .opt (.leaf 'q')]

/-- The options with these letters, every spelling of each, or a command in their place. -/
def loudOrHelp : Pattern Atom :=
  .alt [.seq [.alt [.leaf (.short 'v'), .leaf (.long "verbose")], .opt (.leaf (.short 'q'))],
    .leaf (.command "help")]

/-- The options are built from the letters in five steps, of which two find a single child. -/
theorem built_loudOrHelp : letters.Built loudOrHelp := by
  have options := Pattern.Built.first.step
    (.bind letters (fun letter => .choice [.leaf (Atom.short letter)]) fun letter =>
      Pattern.flat_leaf (Atom.short letter))
  have spelled := options.step (.expand _ Catalog.verboseCatalog)
  have alone := spelled.step (.sequence _ [] [] (by simp))
  have whole := (alone.step (.choice _ [] [.leaf (.command "help")] (by decide))).step (.collapse _)
  have same : (Pattern.choice ([] ++ Pattern.sequence ([] ++
      ((letters.bind fun letter => .choice [.leaf (Atom.short letter)]).expand
        Catalog.verboseCatalog) :: []) :: [.leaf (.command "help")])).collapse = loudOrHelp := by
    decide +kernel
  rw [same] at whole
  exact whole

/-- The options stay flat, and so do changes of an interface with them. -/
theorem building_keeps_flat_letters :
    letters.Flat ∧ loudOrHelp.Flat ∧
    (∀ group, .soleChild group ∉
      ([Edit.followBy [.leaf (.argument "file")], .repeated, .assemble].foldl edit
        ⟨loudOrHelp, Catalog.verboseCatalog⟩).problems) ∧
    (Pattern.sequence [Pattern.seq [loudOrHelp]]).language = loudOrHelp.language := by
  have flat : letters.Flat := by decide
  have ⟨built, problems, collapsed, inOrder, _⟩ := building_keeps_flat flat
  refine ⟨flat, built built_loudOrHelp, problems built_loudOrHelp _ ?_, ?_⟩
  · simp [Edit.Flat, Pattern.flat_leaf]
  · rw [(inOrder _).1, (inOrder _).2, List.map_singleton, List.prod_singleton]
    exact (collapsed (.seq [loudOrHelp])).symm

end Interface

end Synopsis

import Synopsis.Manual

/-!
# What a read manual is made of

A manual is read in two parts, the usage block and the descriptions after it. Whatever is read of
a whole text is put together from those two.
-/
namespace Synopsis.Manual

/-- A result is located exactly when it is one. -/
theorem located_eq_ok {α : Type} {text : List Char} {result : Except Fault α} {value : α} :
    located text result = .ok value ↔ result = .ok value := by
  cases result with
  | ok found => simp only [located, Except.ok.injEq]
  | error fault => simp only [located, reduceCtorEq]

/-- The parts of a text are a usage block and the entries that the lines after it describe. -/
theorem parts_eq_ok {text : List Char} {pattern : Pattern Atom} {catalog : Catalog} :
    parts text = .ok (pattern, catalog) ↔
      ∃ block entries, Usage.Block.ofText text = .ok block ∧
        Description.ofLines block.remaining = .ok entries ∧ block.fragment.pattern = pattern ∧
        (Catalog.ofMentions block.fragment.mentions).describeAll entries = catalog := by
  unfold parts
  cases Usage.Block.ofText text with
  | error fault => simp only [reduceCtorEq, false_and, exists_false]
  | ok block =>
    cases described : Description.ofLines block.remaining with
    | error fault => simp [described]
    | ok entries => simp [described]

/-- The catalog that is read is that of the parts. -/
theorem readCatalog_eq (text : String) :
    readCatalog text = located text.toList ((parts text.toList).map Prod.snd) := by
  rw [readCatalog]
  cases parts text.toList <;> rfl

/-- The interface that is read is assembled from the parts. -/
theorem readInterface_eq (text : String) :
    readInterface text = located text.toList
      ((parts text.toList).map fun found => .assemble found.1 found.2) := by
  rw [readInterface]
  cases parts text.toList <;> rfl

/-- The pattern of a text is that of its usage block. -/
theorem readPattern_eq_ok {text : String} {pattern : Pattern Atom} :
    readPattern text = .ok pattern ↔
      ∃ block, Usage.Block.ofText text.toList = .ok block ∧ block.fragment.pattern = pattern := by
  rw [readPattern, located_eq_ok]
  cases Usage.Block.ofText text.toList with
  | error fault => simp only [reduceCtorEq, false_and, exists_false]
  | ok block => simp

/-- The interface of a text is assembled from its usage block and its described entries. -/
theorem readInterface_eq_ok {text : String} {interface : Interface} :
    readInterface text = .ok interface ↔
      ∃ block entries, Usage.Block.ofText text.toList = .ok block ∧
        Description.ofLines block.remaining = .ok entries ∧
        Interface.assemble block.fragment.pattern
          ((Catalog.ofMentions block.fragment.mentions).describeAll entries) = interface := by
  rw [readInterface, located_eq_ok]
  constructor
  · intro assembled
    cases read : parts text.toList with
    | error fault =>
      rw [read] at assembled
      contradiction
    | ok found =>
      obtain ⟨block, entries, usage, described, same, known⟩ := parts_eq_ok.1 read
      rw [read] at assembled
      injection assembled with assembled
      exact ⟨block, entries, usage, described, by rw [same, known, assembled]⟩
  · rintro ⟨block, entries, usage, described, rfl⟩
    rw [parts_eq_ok.2 ⟨block, entries, usage, described, rfl, rfl⟩]

end Synopsis.Manual

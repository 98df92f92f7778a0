import Synopsis.Manual
import Synopsis.Proofs.Catalog.Listing
import Synopsis.Proofs.Description.Refused
import Synopsis.Proofs.Position
import Synopsis.Proofs.Usage.Block

/-!
# Manuals with more records

A manual that ends with a line feed may be followed by more records. They are read as if they stood
after a bare usage line, their entries replace earlier ones whole, and a fault in them is the same
but for its line.
-/
namespace Synopsis.Manual

open Description (isDashLine)
open Text (Closed lines)

/-- A line that opens a record ends a usage block. -/
theorem endsBlock_of_isDashLine {line : List Char} (opens : isDashLine line = true) :
    Usage.endsBlock line = true := by
  rw [isDashLine, decide_eq_true_eq, List.head?_eq_some_iff] at opens
  obtain ⟨rest, same⟩ := opens
  simp only [Usage.endsBlock, same]

/-- Records after a closed text are read on their own, and described in its catalog. -/
theorem parts_append {text later : List Char} {pattern : Pattern Atom} {catalog : Catalog}
    (closed : Closed text) (opens : ∃ line ∈ (lines later).head?, isDashLine line = true)
    (read : parts text = .ok (pattern, catalog)) :
    parts (text ++ later) = (Description.ofLines (lines later)).map fun entries =>
      (pattern, catalog.describeAll entries) := by
  obtain ⟨line, first, dash⟩ := opens
  obtain ⟨after, shape⟩ := List.head?_eq_some_iff.1 first
  have ends : ∀ line ∈ (lines later).head?, Usage.endsBlock line = true := by
    intro other mem
    obtain rfl := Option.some.inj (first.symm.trans mem)
    exact endsBlock_of_isDashLine dash
  rw [parts] at read
  split at read
  · contradiction
  · next block found =>
    split at read
    · contradiction
    · next entries described =>
      obtain ⟨rfl, rfl⟩ := ok_pair_inj read
      obtain ⟨more, each⟩ := Usage.Block.ofText_append closed (fun _ => ends) found
      have leading : (Description.split (lines later)).1 = [] := by
        rw [shape]
        exact Description.leading_of_isDashLine dash after
      have joined := Description.ofLines_append (fun line mem => (each line mem).mem) leading
        described
      rw [parts, more]
      dsimp only
      rw [joined]
      cases Description.ofLines (lines later) with
      | error fault => rfl
      | ok others =>
        simp only [Except.map, Catalog.describeAll, List.foldl_append]
        rfl

/-- The catalog of a text is that of its parts. -/
theorem readCatalog_eq_ok_iff {text : String} {catalog : Catalog} :
    readCatalog text = .ok catalog ↔ ∃ pattern, parts text.toList = .ok (pattern, catalog) := by
  rw [readCatalog]
  cases parts text.toList with
  | error fault => simp [located]
  | ok found =>
    obtain ⟨pattern, described⟩ := found
    simp [located]

/-- The catalog of a closed text with more records is described by these. A fault in them is placed
as far below their beginning as in any other text before them. -/
theorem readCatalog_with {text later : String} {catalog : Catalog}
    (closed : text.toList.getLast? = some '\n')
    (opens : ∃ line ∈ (lines later.toList).head?, isDashLine line = true)
    (read : readCatalog text = .ok catalog) :
    readCatalog (text ++ later) = match Description.ofLines (lines later.toList) with
      | .ok entries => .ok (catalog.describeAll entries)
      | .error fault =>
        let place := Position.before later.toList fault.rest
        .error ⟨place.lower (text.toList.count '\n'), fault.cause⟩ := by
  obtain ⟨pattern, found⟩ := readCatalog_eq_ok_iff.1 read
  rw [readCatalog, String.toList_append, parts_append closed opens found]
  cases failed : Description.ofLines (lines later.toList) with
  | ok entries => rfl
  | error fault =>
    have suffix := (Description.refused_of_ofLines (Text.lined_lines _) failed).left
    rw [Text.lines_flatten] at suffix
    simp only [Except.map, located, Fault.diagnostic,
      Position.before_append_closed closed suffix]

/-- Records do not affect one another. More text that begins with a record, after a text with a
catalog that ends with a line feed, is accepted exactly where it is after a bare usage line. Then an
atom that it describes has the whole entry that it gives, and any other atom keeps its entry. Where
it is refused, the diagnostic is the same but for as many lines as the two texts before it differ
by. -/
theorem readCatalog_append {text later : String} {catalog : Catalog}
    (closed : text.toList.getLast? = some '\n')
    (opens : ∃ line ∈ (lines later.toList).head?, isDashLine line = true)
    (read : readCatalog text = .ok catalog) :
    ((∃ joined, readCatalog (text ++ later) = .ok joined) ↔
      ∃ found, readCatalog ("Usage:\n  p\n" ++ later) = .ok found) ∧
    (∀ found, readCatalog ("Usage:\n  p\n" ++ later) = .ok found →
      ∃ joined, readCatalog (text ++ later) = .ok joined ∧
        ∀ atom, joined.find? atom = (found.find? atom).or (catalog.find? atom)) ∧
    ∀ line column cause,
      readCatalog ("Usage:\n  p\n" ++ later) = .error ⟨⟨line, column⟩, cause⟩ →
        ∃ raised, readCatalog (text ++ later) = .error ⟨⟨raised, column⟩, cause⟩ ∧
          raised + 2 = line + text.toList.count '\n' := by
  have bare : readCatalog "Usage:\n  p\n" = .ok .empty := by decide +kernel
  have bareClosed : "Usage:\n  p\n".toList.getLast? = some '\n' := by decide +kernel
  have bareFeeds : "Usage:\n  p\n".toList.count '\n' = 2 := by decide +kernel
  rw [readCatalog_with closed opens read, readCatalog_with bareClosed opens bare, bareFeeds]
  cases Description.ofLines (lines later.toList) with
  | ok entries =>
    refine ⟨⟨fun _ => ⟨_, rfl⟩, fun _ => ⟨_, rfl⟩⟩, fun found same => ?_, nofun⟩
    obtain rfl := Except.ok.inj same
    refine ⟨_, rfl, fun atom => ?_⟩
    rw [Catalog.find?_describeAll, Catalog.find?_describeAll, AtomMap.find?_empty, Option.or_none]
  | error fault =>
    refine ⟨⟨nofun, nofun⟩, nofun, fun line column cause same => ?_⟩
    injection Except.error.inj same with place why
    injection place with down across
    subst down across why
    exact ⟨_, rfl, by omega⟩

/-- A later record replaces the entry of one spelling of an option and leaves that of the other. -/
theorem readCatalog_append_replaced :
    ∃ joined,
      readCatalog ("Usage: sort [-r]\n  -r, --down  Falling. [default: 1]\n" ++ "  -r KEY\n") =
        .ok joined ∧
      joined.find? (.short 'r') = some ⟨.ofList [.short 'r'], none, true, false⟩ ∧
      joined.find? (.long "down") =
        some ⟨.ofList [.short 'r', .long "down"], some "1", false, false⟩ := by
  let down : Entry := ⟨.ofList [.short 'r', .long "down"], some "1", false, false⟩
  let key : Entry := ⟨.ofList [.short 'r'], none, true, false⟩
  have read : readCatalog "Usage: sort [-r]\n  -r, --down  Falling. [default: 1]\n" =
      .ok (.ofList [(.short 'r', down), (.long "down", down)]) := by decide +kernel
  have opens : ∃ line ∈ (lines "  -r KEY\n".toList).head?, isDashLine line = true :=
    ⟨"  -r KEY\n".toList, by decide +kernel, by decide +kernel⟩
  have alone : readCatalog ("Usage:\n  p\n" ++ "  -r KEY\n") =
      .ok (.ofList [(.short 'r', key)]) := by decide +kernel
  obtain ⟨joined, accepted, union⟩ :=
    (readCatalog_append (by decide +kernel) opens read).2.1 _ alone
  refine ⟨joined, accepted, ?_, ?_⟩
  · rw [union]
    decide +kernel
  · rw [union]
    decide +kernel

end Synopsis.Manual

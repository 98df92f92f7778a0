import Synopsis.Proofs.Catalog
import Synopsis.Proofs.List

/-!
# Recording what may repeat

The repetition of a pattern's leaves is recorded in one pass over them that passes over a leaf it
has seen. The pass writes one field of the entries of the leaves, in a blank entry where there was
none, and nothing else; so a second pass finds everything as it would leave it.
-/
namespace Synopsis.Catalog

/-- The leaves seen so far and the catalog so far, after one more leaf: what the pattern says of its
repetition is recorded, unless it was seen before. -/
def visit (pattern : Pattern Atom) (state : List Atom × Catalog) (atom : Atom) :
    List Atom × Catalog :=
  if atom ∈ state.1 then state
  else (state.1 ++ [atom], state.2.record atom (pattern.mayRepeat atom))

/-- The visits of leaves have seen each of them once, and recorded those they have seen. -/
theorem foldl_visit (pattern : Pattern Atom) (catalog : Catalog) (leaves : List Atom) :
    leaves.foldl (visit pattern) ([], catalog) =
      (leaves.eraseDups, leaves.eraseDups.foldl
        (fun found atom => found.record atom (pattern.mayRepeat atom)) catalog) := by
  induction leaves using List.reverseRecOn with
  | nil => rfl
  | append_singleton leaves last ih =>
    rw [List.foldl_concat, ih, visit, eraseDups_concat]
    simp only [List.mem_eraseDups]
    split
    · rfl
    · rw [List.foldl_concat]

/-- The pass over all leaves of a pattern records their repetition. -/
theorem recordRepeats_eq_visits (catalog : Catalog) (pattern : Pattern Atom) :
    catalog.recordRepeats pattern = (pattern.leaves.foldl (visit pattern) ([], catalog)).2 := by
  rw [foldl_visit, recordRepeats]

/-- Recording what is recorded changes nothing. -/
theorem recordRepeats_again (catalog : Catalog) (pattern : Pattern Atom) :
    (catalog.recordRepeats pattern).recordRepeats pattern = catalog.recordRepeats pattern := by
  refine AtomMap.ext_find? fun atom => ?_
  rw [find?_recordRepeats, find?_recordRepeats]
  split
  · rfl
  · rfl

/-- Recording the repetition of a pattern's leaves touches nothing else. The pass over the leaves
gives a catalog with entries for the atoms that had one and for the leaves. The entry of a leaf says
whether the leaf may repeat, and otherwise what it said before, or what a blank one says; every
other entry is as it was. A second pass changes nothing. -/
theorem recordRepeats_frame (catalog : Catalog) (pattern : Pattern Atom) :
    let recorded := catalog.recordRepeats pattern
    (pattern.leaves.foldl (visit pattern) ([], catalog)).2 = recorded ∧
    (∀ atom, atom ∈ recorded.keys ↔ atom ∈ catalog.keys ∨ atom ∈ pattern.leaves) ∧
    (∀ atom ∈ pattern.leaves, recorded.find? atom = some (match catalog.find? atom with
      | some entry => { entry with repeatable := pattern.mayRepeat atom }
      | none => ⟨.empty, none, false, pattern.mayRepeat atom⟩)) ∧
    (∀ atom, atom ∉ pattern.leaves → recorded.find? atom = catalog.find? atom) ∧
    recorded.recordRepeats pattern = recorded := by
  intro recorded
  have found : ∀ atom, recorded.find? atom = if atom ∈ pattern.leaves then
      some { (catalog.find? atom).getD .blank with repeatable := pattern.mayRepeat atom }
      else catalog.find? atom := find?_recordRepeats catalog pattern
  refine ⟨(recordRepeats_eq_visits catalog pattern).symm, fun atom => ?_, fun atom leaf => ?_,
    fun atom other => ?_, recordRepeats_again catalog pattern⟩
  · rw [AtomMap.mem_keys_iff, AtomMap.mem_keys_iff, found]
    by_cases leaf : atom ∈ pattern.leaves
    · rw [if_pos leaf]
      exact ⟨fun _ => .inr leaf, fun _ => ⟨_, rfl⟩⟩
    · rw [if_neg leaf]
      exact ⟨.inl, fun either => either.resolve_right leaf⟩
  · rw [found, if_pos leaf]
    cases catalog.find? atom with
    | some entry => rfl
    | none => rfl
  · rw [found, if_neg other]

/-- A catalog in which an option that stands nowhere is said to repeat. -/
def staleCatalog : Catalog := .ofList
  [(.short 'o', ⟨.ofList [.short 'o'], some "out", true, true⟩),
    (.long "old", ⟨.ofList [.long "old"], none, false, true⟩)]

/-- An option that stands once, before a repeated argument. -/
def copyPattern : Pattern Atom := .seq [.leaf (.short 'o'), .rep (.leaf (.argument "file"))]

/-- The option no longer repeats, the argument has an entry, and the entry of the option that stands
nowhere is as it was. -/
theorem recordRepeats_frame_stale :
    let recorded := staleCatalog.recordRepeats copyPattern
    recorded.keys = [.short 'o', .long "old", .argument "file"] ∧
      recorded.find? (.short 'o') = some ⟨.ofList [.short 'o'], some "out", true, false⟩ ∧
      recorded.find? (.argument "file") = some ⟨.empty, none, false, true⟩ ∧
      recorded.find? (.long "old") = some ⟨.ofList [.long "old"], none, false, true⟩ := by
  intro recorded
  obtain ⟨-, -, leaf, other, -⟩ := recordRepeats_frame staleCatalog copyPattern
  refine ⟨by decide +kernel, ?_, ?_, ?_⟩
  · exact (leaf (.short 'o') (by decide)).trans (by decide +kernel)
  · exact (leaf (.argument "file") (by decide)).trans (by decide +kernel)
  · exact (other (.long "old") (by decide)).trans (by decide +kernel)

end Synopsis.Catalog

import Synopsis.Proofs.Stored.RoundTrip

/-!
# Reading JSON as a normal form

There are many JSON texts that an interface is read of, and one that is written of it. Whichever was
read, the one that is written gives the same interface, so that reading and writing once more
changes nothing.
-/
namespace Synopsis

/-- The atoms of an interface that is read of any JSON text are well formed. -/
theorem Interface.atoms_of_ofJson {text : String} {interface : Interface}
    (read : Interface.ofJson text = .ok interface) :
    ∀ atom ∈ interface.atoms, atom.wellFormed = true :=
  (Stored.formedInterface_iff.1 (formed_of_ofJson read)).1

/-- The atoms of a manual that is read of any JSON text are well formed. -/
theorem Manual.atoms_of_ofJson {text : String} {manual : Manual}
    (read : Manual.ofJson text = .ok manual) :
    ∀ atom ∈ manual.interface.atoms, atom.wellFormed = true :=
  (Stored.formedInterface_iff.1 (formed_of_ofJson read)).1

/-- What is read of a text and written is a text that is read and written as itself, if what is
written can be read back. -/
theorem written_of_normal {ε α : Type} {read : String → Except ε α} {write : α → String}
    (back : ∀ text value, read text = .ok value → read (write value) = .ok value)
    {text written : String} (normal : (read text).map write = .ok written) :
    (read written).map write = .ok written := by
  cases given : read text with
  | error refused =>
    rw [given] at normal
    contradiction
  | ok value =>
    rw [given] at normal
    obtain rfl : write value = written := Except.ok.inj normal
    rw [back text value given]
    rfl

/-- Every atom of an interface that is read of a JSON text is read from its spelling, and the
interface is read back from the text that is written of it; the same holds of a manual. So a text
that is written after reading stays the same however often it is read and written again. -/
theorem ofJson_normal :
    (∀ text interface, Interface.ofJson text = .ok interface →
      (∀ atom ∈ interface.atoms, Atom.read atom.spelling = .ok atom) ∧
        Interface.ofJson interface.toJson = .ok interface) ∧
    (∀ text manual, Manual.ofJson text = .ok manual →
      (∀ atom ∈ manual.interface.atoms, Atom.read atom.spelling = .ok atom) ∧
        Manual.ofJson manual.toJson = .ok manual) ∧
    (∀ text written, (Interface.ofJson text).map Interface.toJson = .ok written →
      (Interface.ofJson written).map Interface.toJson = .ok written) ∧
    ∀ text written, (Manual.ofJson text).map Manual.toJson = .ok written →
      (Manual.ofJson written).map Manual.toJson = .ok written := by
  have interface : ∀ text interface, Interface.ofJson text = .ok interface →
      Interface.ofJson interface.toJson = .ok interface :=
    fun text interface read => Interface.ofJson_toJson_eq_ok.2 (Interface.formed_of_ofJson read)
  have manual : ∀ text manual, Manual.ofJson text = .ok manual →
      Manual.ofJson manual.toJson = .ok manual :=
    fun text manual read => Manual.ofJson_toJson_eq_ok.2 (Manual.formed_of_ofJson read)
  refine ⟨fun text found read => ⟨fun atom mem => ?_, interface text found read⟩,
    fun text found read => ⟨fun atom mem => ?_, manual text found read⟩,
    fun text written => written_of_normal interface, fun text written => written_of_normal manual⟩
  · exact Atom.read_spelling (Interface.atoms_of_ofJson read atom mem)
  · exact Atom.read_spelling (Manual.atoms_of_ofJson read atom mem)

/-- A text with its fields in another order, an escaped character, an entry as a list with one
synonym twice, another entry for the same key, and a field that means nothing. -/
def looseText : String :=
  "\x7b \"infos\": \x7b\"-a\": [[\"-b\"], null, true, true],\n" ++
  "  \"-a\": \x7b\"is_repeated\": true, \"synonyms\": [\"\\u002da\", \"--all\", \"-a\"],\n" ++
  "    \"expects_val\": false, \"note\": [1e2]\x7d\x7d, \"pattern\": \x7b\"Atom\": \"-a\"\x7d \x7d"

/-- The interface that is read of the text. -/
def looseInterface : Interface where
  pattern := .leaf (.short 'a')
  catalog := .ofList [(.short 'a', ⟨.ofList [.short 'a', .long "all"], none, false, true⟩)]

/-- A manual with the interface, as a list. -/
def looseManual : String := "[\"Usage: \\u0070\", " ++ looseText ++ "]"

/-- The interface of the text is read back from another text, which is then written again. -/
theorem ofJson_normal_loose :
    (Interface.ofJson looseText = .ok looseInterface ∧
      Atom.read (Atom.long "all").spelling = .ok (.long "all") ∧
      Interface.ofJson looseInterface.toJson = .ok looseInterface) ∧
    (Manual.ofJson looseManual = .ok ⟨"Usage: p", looseInterface⟩ ∧
      Manual.ofJson (Manual.toJson ⟨"Usage: p", looseInterface⟩) =
        .ok ⟨"Usage: p", looseInterface⟩) ∧
    ((Interface.ofJson looseText).map Interface.toJson = .ok looseInterface.toJson ∧
      looseInterface.toJson ≠ looseText ∧
      (Interface.ofJson looseInterface.toJson).map Interface.toJson = .ok looseInterface.toJson) ∧
    (Manual.ofJson looseManual).map Manual.toJson =
        .ok (Manual.toJson ⟨"Usage: p", looseInterface⟩) ∧
      (Manual.ofJson (Manual.toJson ⟨"Usage: p", looseInterface⟩)).map Manual.toJson =
        .ok (Manual.toJson ⟨"Usage: p", looseInterface⟩) := by
  obtain ⟨interface, manual, again, manualAgain⟩ := ofJson_normal
  have read : Interface.ofJson looseText = .ok looseInterface := by decide +kernel
  have listed : Manual.ofJson looseManual = .ok ⟨"Usage: p", looseInterface⟩ := by decide +kernel
  have other : looseInterface.toJson ≠ looseText := by decide +kernel
  have mem : .long "all" ∈ looseInterface.atoms := by decide +kernel
  have written : (Interface.ofJson looseText).map Interface.toJson = .ok looseInterface.toJson := by
    rw [read]
    rfl
  have manualWritten : (Manual.ofJson looseManual).map Manual.toJson =
      .ok (Manual.toJson ⟨"Usage: p", looseInterface⟩) := by
    rw [listed]
    rfl
  obtain ⟨spelled, back⟩ := interface _ _ read
  exact ⟨⟨read, spelled _ mem, back⟩, ⟨listed, (manual _ _ listed).2⟩,
    ⟨written, other, again _ _ written⟩, manualWritten, manualAgain _ _ manualWritten⟩

end Synopsis

import Synopsis.Proofs.Atom.Spelling
import Synopsis.Proofs.Catalog.Sound
import Synopsis.Proofs.Description
import Synopsis.Proofs.Manual.Reading
import Synopsis.Proofs.Stored.Written
import Synopsis.Proofs.Usage.Sound

/-!
# Read manuals are sound

Whatever the text is, a pattern that is read of it is sound, and so are the pattern and the catalog
of an interface that is read of it. Every atom in them is read back from its spelling.
-/
namespace Synopsis

/-- The atoms of an interface with a sound pattern and a sound catalog are well formed. -/
theorem Interface.formed_of_sound {interface : Interface} (pattern : interface.pattern.Sound)
    (catalog : interface.catalog.Sound) :
    ∀ atom ∈ interface.atoms, atom.wellFormed = true := by
  refine forall_atoms.2 ⟨fun atom leaf => (pattern.leaves atom leaf).1, ?_⟩
  rintro ⟨key, entry⟩ listed
  have found := AtomMap.mem_toList_iff.1 listed
  exact ⟨catalog.key key entry found,
    fun synonym mem => (catalog.synonym key entry found synonym mem).2⟩

namespace Manual

/-- An interface that is read of a text is assembled from a sound pattern and a sound catalog. -/
theorem sound_of_readInterface {text : String} {interface : Interface}
    (read : readInterface text = .ok interface) :
    interface.pattern.Sound ∧ interface.catalog.Sound := by
  obtain ⟨block, entries, usage, described, rfl⟩ := readInterface_eq_ok.1 read
  have produced := Usage.Block.produced_fragment usage
  have known := Catalog.sound_described (Usage.formed_of_produced produced)
    (Description.formed_of_ofLines described)
  have expanded := known.expand (Usage.sound_of_produced produced)
  exact ⟨expanded, known.recordRepeats fun atom leaf => (expanded.leaves atom leaf).1⟩

/-- The pattern of the usage lines of a text is sound: every choice has two branches or more, no
sequence has a single part, every leaf is well formed, no command is spelled like the word for all
options, and the placeholder that this word stands for is what a repetition repeats. An interface
that is read of a text has such a pattern, and a catalog in which every atom with an entry is well
formed, every synonym is a well-formed option, and an atom with synonyms is one of them. Every atom
of the interface has its spelling as the only text that it is read from. -/
theorem readInterface_sound (text : String) :
    (∀ pattern, readPattern text = .ok pattern → pattern.Sound) ∧
    ∀ interface, readInterface text = .ok interface →
      interface.pattern.Sound ∧ interface.catalog.Sound ∧
      ∀ atom ∈ interface.atoms, ∀ spelled, Atom.read spelled = .ok atom ↔
        spelled = atom.spelling := by
  refine ⟨fun pattern read => ?_, fun interface read => ?_⟩
  · obtain ⟨block, usage, rfl⟩ := readPattern_eq_ok.1 read
    exact Usage.sound_of_produced (Usage.Block.produced_fragment usage)
  · obtain ⟨pattern, catalog⟩ := sound_of_readInterface read
    refine ⟨pattern, catalog, fun atom mem spelled => ?_⟩
    have formed := Interface.formed_of_sound pattern catalog atom mem
    rw [Atom.read_eq_ok_iff, and_iff_right formed]

/-- A text with a stack of options, the word for all options, and a usage line without
expressions. -/
def archiveText : String :=
  "Usage:\n  tar [options] (-xv | -c FILE)... <file>\n  tar\n\n  -c, --create FILE  Make [default: a]\n"

/-- The pattern of its usage lines. -/
def archivePattern : Pattern Atom :=
  .alt [.seq [.opt (.rep (.leaf .options)),
      .rep (.alt [.rep (.alt [.leaf (.short 'x'), .leaf (.short 'v')]), .leaf (.short 'c')]),
      .leaf (.argument "file")],
    .seq []]

/-- What is known about its described option. -/
def createEntry : Entry := ⟨.ofList [.short 'c', .long "create"], some "a", true, true⟩

/-- The interface that the text describes. -/
def archiveInterface : Interface where
  pattern := .alt [.seq [.opt (.rep (.leaf .options)),
      .rep (.alt [.rep (.alt [.leaf (.short 'x'), .leaf (.short 'v')]),
        .alt [.leaf (.short 'c'), .leaf (.long "create")]]),
      .leaf (.argument "file")],
    .seq []]
  catalog := .ofList
    [(.short 'c', createEntry), (.short 'v', { Entry.blank with repeatable := true }),
      (.short 'x', { Entry.blank with repeatable := true }), (.long "create", createEntry),
      (.argument "file", .blank), (.options, { Entry.blank with repeatable := true })]

/-- The pattern is sound, the described option stands in the interface for both of its spellings,
and each of them is read from itself only. -/
theorem readInterface_sound_archive :
    (readPattern archiveText = .ok archivePattern ∧ archivePattern.Sound) ∧
    readInterface archiveText = .ok archiveInterface ∧ archiveInterface.pattern.Sound ∧
      archiveInterface.catalog.Sound ∧
      ∀ spelled, Atom.read spelled = .ok (.long "create") ↔ spelled = "--create" := by
  have pattern : readPattern archiveText = .ok archivePattern := by decide +kernel
  have interface : readInterface archiveText = .ok archiveInterface := by decide +kernel
  have mem : .long "create" ∈ archiveInterface.atoms := by decide +kernel
  obtain ⟨written, read⟩ := readInterface_sound archiveText
  obtain ⟨sound, known, spelled⟩ := read archiveInterface interface
  exact ⟨⟨pattern, written _ pattern⟩, interface, sound, known, spelled _ mem⟩

end Manual

end Synopsis

import Synopsis.Proofs.Interface
import Synopsis.Proofs.Manual.Reading
import Synopsis.Proofs.Pattern.Repetition

/-!
# Repetition in read interfaces

Whoever matches arguments against an interface relies on what its entries say about repetition: a
leaf whose entry does not let it repeat is mentioned in no word of the pattern twice.
-/
namespace Synopsis

/-- The judgment on repetition misses no word that mentions an atom twice, so an atom that an
interface does not let repeat is mentioned at most once; and with disjoint choices, an atom that
may repeat is mentioned twice in some word. -/
theorem mayRepeat_describes_words :
    (∀ (pattern : Pattern Atom) (target : Atom),
      (∃ word ∈ pattern.language, 2 ≤ word.count target) → pattern.mayRepeat target = true) ∧
    (∀ (text : String) (interface : Interface), Manual.readInterface text = .ok interface →
      ∀ atom ∈ interface.pattern.leaves, ∃ entry, interface.entry? atom = some entry ∧
        (entry.repeatable = false →
          ∀ word ∈ interface.pattern.language, word.count atom ≤ 1)) ∧
    (∀ (pattern : Pattern Atom) (target : Atom), pattern.DisjointChoices →
      pattern.mayRepeat target = true → ∃ word ∈ pattern.language, 2 ≤ word.count target) := by
  refine ⟨?_, ?_, ?_⟩
  · rintro pattern target ⟨word, described, twice⟩
    refine Bool.of_not_eq_false fun once => ?_
    have bound := Pattern.count_le_one once described
    omega
  · intro text interface read atom mem
    obtain ⟨block, entries, -, -, rfl⟩ := Manual.readInterface_eq_ok.1 read
    obtain ⟨entry, found, flag⟩ := Interface.find?_assemble_of_leaf mem
    refine ⟨entry, found, fun once word described => ?_⟩
    exact Pattern.count_le_one (flag.symm.trans once) described
  · intro pattern target disjoint repeats
    exact Pattern.exists_word_of_mayRepeat disjoint repeats

/-- A text with one option in two spellings and a repeated argument. -/
def copyText : String := "Usage:\n  copy (-a | go) <x>...\n\n  -a, --all  All [default: 3]\n"

/-- The interface that the text describes. -/
def copyInterface : Interface where
  pattern := .seq
    [.alt [.alt [.leaf (.short 'a'), .leaf (.long "all")], .leaf (.command "go")],
      .rep (.leaf (.argument "x"))]
  catalog := .ofList
    [(.short 'a', ⟨.ofList [.short 'a', .long "all"], some "3", false, false⟩),
      (.long "all", ⟨.ofList [.short 'a', .long "all"], some "3", false, false⟩),
      (.command "go", .blank), (.argument "x", { Entry.blank with repeatable := true })]

/-- The argument is mentioned twice in a word, and the option, which may not repeat, in none. -/
theorem mayRepeat_describes_words_copy :
    ((∃ word ∈ copyInterface.pattern.language, 2 ≤ word.count (.argument "x")) ∧
      copyInterface.pattern.mayRepeat (.argument "x") = true) ∧
    (Manual.readInterface copyText = .ok copyInterface ∧
      ∃ entry, copyInterface.entry? (.short 'a') = some entry ∧ entry.repeatable = false ∧
        ∀ word ∈ copyInterface.pattern.language, word.count (.short 'a') ≤ 1) ∧
    (copyInterface.pattern.DisjointChoices ∧
      ∃ word ∈ copyInterface.pattern.language, 2 ≤ word.count (.argument "x")) := by
  obtain ⟨complete, sound, exact⟩ := mayRepeat_describes_words
  have disjoint : copyInterface.pattern.DisjointChoices := by decide
  have read : Manual.readInterface copyText = .ok copyInterface := by decide +kernel
  have repeats : copyInterface.pattern.mayRepeat (.argument "x") = true := by decide
  have twice := exact _ _ disjoint repeats
  obtain ⟨entry, found, once⟩ := sound _ _ read (.short 'a') (by decide)
  have flag : entry.repeatable = false := by
    have same : copyInterface.entry? (.short 'a') =
        some ⟨.ofList [.short 'a', .long "all"], some "3", false, false⟩ := by decide +kernel
    rw [← Option.some.inj (same.symm.trans found)]
  exact ⟨⟨twice, complete _ _ twice⟩, ⟨read, entry, found, flag, once flag⟩, disjoint, twice⟩

end Synopsis

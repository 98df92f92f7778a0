import Synopsis.Proofs.Pattern.Language

/-!
# Substitution in the language of a pattern

Replacing the leaves of a pattern by patterns replaces, in each word that the pattern describes,
every leaf by a word of its replacement. Each mention is replaced on its own: neither the place in
the word nor the round of a repetition matters.
-/
namespace Synopsis.Pattern

open scoped Computability

variable {α β : Type}

/-- Every leaf of a word is replaced by a word of a language of its own, in order. -/
inductive Replaced (words : α → Language β) : List α → List β → Prop where
  /-- There is nothing to replace. -/
  | nil : Replaced words [] []
  /-- The first leaf and the others are replaced. -/
  | cons {atom : α} {later : List α} {head tail : List β} (first : head ∈ words atom)
      (others : Replaced words later tail) : Replaced words (atom :: later) (head ++ tail)

section Replaced

variable {words : α → Language β}

/-- Nothing is replaced by nothing. -/
theorem replaced_nil {word : List β} : Replaced words [] word ↔ word = [] := by
  constructor
  · rintro ⟨⟩
    rfl
  · rintro rfl
    exact .nil

/-- A word of one leaf is replaced by a word of that leaf. -/
theorem replaced_singleton {atom : α} {word : List β} :
    Replaced words [atom] word ↔ word ∈ words atom := by
  constructor
  · intro replaced
    cases replaced with
    | cons first others =>
      rw [replaced_nil.1 others, List.append_nil]
      exact first
  · intro mem
    rw [← List.append_nil word]
    exact .cons mem .nil

/-- Two words one after the other are replaced one after the other. -/
theorem replaced_append {first later : List α} {word : List β} :
    Replaced words (first ++ later) word ↔
      ∃ head tail, Replaced words first head ∧ Replaced words later tail ∧ head ++ tail = word := by
  induction first generalizing word with
  | nil =>
    constructor
    · intro replaced
      exact ⟨[], word, .nil, replaced, rfl⟩
    · rintro ⟨head, tail, none, replaced, rfl⟩
      rw [replaced_nil.1 none]
      exact replaced
  | cons atom rest ih =>
    constructor
    · intro replaced
      cases replaced with
      | cons one others =>
        obtain ⟨middle, tail, inRest, inLater, rfl⟩ := ih.1 others
        exact ⟨_, tail, .cons one inRest, inLater, List.append_assoc _ _ _⟩
    · rintro ⟨_, tail, replaced, inLater, rfl⟩
      cases replaced with
      | cons one others =>
        rw [List.append_assoc]
        exact .cons one (ih.2 ⟨_, tail, others, inLater, rfl⟩)

/-- Where every leaf is replaced by single leaves, a word is replaced leaf by leaf. -/
theorem replaced_iff_forall₂ {becomes : α → β → Prop}
    (single : ∀ atom word, word ∈ words atom ↔ ∃ leaf, becomes atom leaf ∧ word = [leaf])
    {written : List α} {word : List β} :
    Replaced words written word ↔ List.Forall₂ becomes written word := by
  constructor
  · intro replaced
    induction replaced with
    | nil => exact .nil
    | cons first others ih =>
      obtain ⟨leaf, related, rfl⟩ := (single _ _).1 first
      exact .cons related ih
  · intro related
    induction related with
    | nil => exact .nil
    | cons one others ih => exact .cons ((single _ _).2 ⟨_, one, rfl⟩) ih

end Replaced

/-- The words of a language with every leaf replaced. -/
def substitute (words : α → Language β) : Language α →+* Language β where
  toFun language := {word | ∃ written ∈ language, Replaced words written word}
  map_zero' := by
    refine Language.ext fun word => ⟨?_, fun mem => absurd mem (Language.notMem_zero word)⟩
    rintro ⟨written, mem, -⟩
    exact absurd mem (Language.notMem_zero written)
  map_one' := by
    refine Language.ext fun word => ⟨?_, fun mem => ⟨[], rfl, replaced_nil.2 mem⟩⟩
    rintro ⟨written, mem, replaced⟩
    rw [(Language.mem_one written).1 mem] at replaced
    exact replaced_nil.1 replaced
  map_add' first second := by
    refine Language.ext fun word => ⟨?_, ?_⟩
    · rintro ⟨written, mem | mem, replaced⟩
      · exact .inl ⟨written, mem, replaced⟩
      · exact .inr ⟨written, mem, replaced⟩
    · rintro (⟨written, mem, replaced⟩ | ⟨written, mem, replaced⟩)
      · exact ⟨written, .inl mem, replaced⟩
      · exact ⟨written, .inr mem, replaced⟩
  map_mul' first second := by
    refine Language.ext fun word => ⟨?_, ?_⟩
    · rintro ⟨_, ⟨front, inFirst, back, inSecond, rfl⟩, replaced⟩
      obtain ⟨head, tail, one, other, rfl⟩ := replaced_append.1 replaced
      exact ⟨head, ⟨front, inFirst, one⟩, tail, ⟨back, inSecond, other⟩, rfl⟩
    · rintro ⟨head, ⟨front, inFirst, one⟩, tail, ⟨back, inSecond, other⟩, rfl⟩
      exact ⟨front ++ back, ⟨front, inFirst, back, inSecond, rfl⟩,
        replaced_append.2 ⟨head, tail, one, other, rfl⟩⟩

variable (words : α → Language β)

/-- The words of a language with leaves replaced are its own words with leaves replaced. -/
theorem mem_substitute {language : Language α} {word : List β} :
    word ∈ substitute words language ↔ ∃ written ∈ language, Replaced words written word := Iff.rfl

/-- The rounds of a repetition are replaced each on its own. -/
theorem substitute_kstar (language : Language α) :
    substitute words language∗ = (substitute words language)∗ := by
  have union : ∀ family : ℕ → Language α,
      substitute words (⨆ count, family count) = ⨆ count, substitute words (family count) := by
    intro family
    refine Language.ext fun word => ?_
    simp only [mem_substitute, Language.mem_iSup]
    constructor
    · rintro ⟨written, ⟨count, mem⟩, replaced⟩
      exact ⟨count, written, mem, replaced⟩
    · rintro ⟨count, written, mem, replaced⟩
      exact ⟨written, ⟨count, mem⟩, replaced⟩
  rw [Language.kstar_eq_iSup_pow, Language.kstar_eq_iSup_pow, union]
  simp only [map_pow]

/-- The word of one leaf is replaced by the words of the leaf. -/
theorem substitute_singleton (atom : α) : substitute words {[atom]} = words atom := by
  refine Language.ext fun word => ⟨?_, fun mem => ⟨[atom], rfl, replaced_singleton.2 mem⟩⟩
  rintro ⟨_, rfl, replaced⟩
  exact replaced_singleton.1 replaced

mutual

/-- A pattern with leaves replaced describes the words of the pattern with leaves replaced. -/
theorem language_bind (f : α → Pattern β) : ∀ pattern : Pattern α,
    (pattern.bind f).language = substitute (fun atom => (f atom).language) pattern.language
  | .seq parts => languageInOrder_bindAll f parts
  | .alt branches => languageOfAny_bindAll f branches
  | .opt body => by rw [bind, language, language, language_bind f body, map_add, map_one]
  | .rep body => by
    rw [bind, language, language, language_bind f body, map_mul, substitute_kstar]
  | .leaf atom => by rw [bind, language, substitute_singleton]

/-- Patterns in order with leaves replaced. -/
theorem languageInOrder_bindAll (f : α → Pattern β) : ∀ parts : List (Pattern α),
    languageInOrder (bindAll f parts) =
      substitute (fun atom => (f atom).language) (languageInOrder parts)
  | [] => by rw [bindAll, languageInOrder, languageInOrder, map_one]
  | first :: later => by
    rw [bindAll, languageInOrder, languageInOrder, language_bind f first,
      languageInOrder_bindAll f later, map_mul]

/-- Any of several patterns with leaves replaced. -/
theorem languageOfAny_bindAll (f : α → Pattern β) : ∀ branches : List (Pattern α),
    languageOfAny (bindAll f branches) =
      substitute (fun atom => (f atom).language) (languageOfAny branches)
  | [] => by rw [bindAll, languageOfAny, languageOfAny, map_zero]
  | first :: later => by
    rw [bindAll, languageOfAny, languageOfAny, language_bind f first,
      languageOfAny_bindAll f later, map_add]

end

/-- A choice of leaves describes each of them once. -/
theorem mem_language_choice_leaf {atoms : List α} {word : List α} :
    word ∈ (choice (atoms.map leaf)).language ↔ ∃ atom ∈ atoms, word = [atom] := by
  rw [choice, language_collapse]
  simp only [mem_language_alt, List.mem_map, exists_exists_and_eq_and, mem_language_leaf]

end Synopsis.Pattern

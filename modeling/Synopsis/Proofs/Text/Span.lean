import Synopsis.Proofs.Text.Feed

/-!
# Spans

What a reader takes from the front of a text is a span: everything up to what is left. A span is
known by the class of its characters. Where no character of a line break is in the class, the span
lies within a line.
-/
namespace Synopsis.Text

/-- Only characters of a class are read of a text, up to the rest. -/
def Spans (inside : Char → Bool) (text rest : List Char) : Prop :=
  ∃ read, text = read ++ rest ∧ ∀ c ∈ read, inside c = true

section Spans

variable {inside : Char → Bool} {text middle rest : List Char}

/-- Nothing is read of a text that is left as it is. -/
theorem spans_refl (text : List Char) : Spans inside text text := ⟨[], rfl, nofun⟩

/-- A word of characters of the class is read. -/
theorem spans_append {word : List Char} (all : ∀ c ∈ word, inside c = true) (rest : List Char) :
    Spans inside (word ++ rest) rest := ⟨word, rfl, all⟩

/-- Spans that adjoin make one span. -/
theorem Spans.trans (first : Spans inside text middle) (second : Spans inside middle rest) :
    Spans inside text rest := by
  obtain ⟨front, rfl, allFront⟩ := first
  obtain ⟨back, rfl, allBack⟩ := second
  refine ⟨front ++ back, (List.append_assoc ..).symm, fun c mem => ?_⟩
  exact (List.mem_append.1 mem).elim (allFront c) (allBack c)

/-- A first character of the class is read with a span after it. -/
theorem Spans.cons {c : Char} (first : inside c = true) (spans : Spans inside text rest) :
    Spans inside (c :: text) rest :=
  (spans_append (List.forall_mem_singleton.2 first) text).trans spans

/-- A span of characters of a class is one of characters of any larger class. -/
theorem Spans.mono {larger : Char → Bool} (spans : Spans inside text rest)
    (above : ∀ c, inside c = true → larger c = true) : Spans larger text rest := by
  obtain ⟨read, same, all⟩ := spans
  exact ⟨read, same, fun c mem => above c (all c mem)⟩

/-- All characters of the class are dropped in a span. -/
theorem spans_dropWhile (inside : Char → Bool) (text : List Char) :
    Spans inside text (text.dropWhile inside) :=
  ⟨text.takeWhile inside, List.takeWhile_append_dropWhile.symm,
    List.all_eq_true.1 List.all_takeWhile⟩

/-- Blanks are skipped in a span. -/
theorem spans_skipBlanks (text : List Char) : Spans isBlank text (skipBlanks text) :=
  spans_dropWhile isBlank text

/-- A name is read in a span of name characters. -/
theorem spans_of_name? {name : List Char} (read : name? text = some (name, rest)) :
    Spans isNameChar text rest := by
  obtain ⟨named, rfl, -⟩ := name?_eq_some_iff.1 read
  obtain ⟨c, more, rfl, first, all⟩ := exists_first_of_isName named
  refine spans_append (List.forall_mem_cons.2 ⟨?_, all⟩) rest
  rw [isNameChar, first, Bool.true_or, Bool.true_or]

end Spans

/-- What is read of a text, up to the rest, holds no character of a line break. -/
def Within (text rest : List Char) : Prop :=
  ∃ read, text = read ++ rest ∧ '\n' ∉ read ∧ '\r' ∉ read

section Within

variable {text middle rest : List Char}

/-- A span lies within a line if no character of a line break is in its class. -/
theorem Spans.within {inside : Char → Bool} (spans : Spans inside text rest)
    (inline : Inline inside) : Within text rest := by
  obtain ⟨read, same, all⟩ := spans
  refine ⟨read, same, fun feed => ?_, fun carriage => ?_⟩
  · exact Bool.false_ne_true (inline.1.symm.trans (all _ feed))
  · exact Bool.false_ne_true (inline.2.symm.trans (all _ carriage))

/-- Nothing read lies within a line. -/
theorem within_refl (text : List Char) : Within text text :=
  ⟨[], rfl, List.not_mem_nil, List.not_mem_nil⟩

/-- Readings within a line that adjoin lie within a line together. -/
theorem Within.trans (first : Within text middle) (second : Within middle rest) :
    Within text rest := by
  obtain ⟨front, rfl, feed, carriage⟩ := first
  obtain ⟨back, rfl, feed', carriage'⟩ := second
  refine ⟨front ++ back, (List.append_assoc ..).symm, ?_, ?_⟩
  · exact List.not_mem_append feed feed'
  · exact List.not_mem_append carriage carriage'

/-- What is left after reading within a line ends the text. -/
theorem Within.suffix (within : Within text rest) : rest <:+ text := by
  obtain ⟨read, rfl, -⟩ := within
  exact List.suffix_append read rest

end Within

end Synopsis.Text

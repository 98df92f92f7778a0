import Mathlib.Order.Basic
import Synopsis.Proofs.Position

/-!
# Positions in the order of the text

Each character leads to a later position, so the order of positions is that of the places in a text.
An offset in bytes stands for a place that may be before it: the end of the text, if the offset is
beyond it, or the last boundary of a character. Two offsets have one position exactly when they
stand for one place.
-/
namespace Synopsis.Position

/-- Positions are partially ordered, by line and then by column. -/
instance : PartialOrder Position where
  le_refl p := by
    have same : p.column ≤ p.column := Nat.le_refl p.column
    exact .inr ⟨rfl, same⟩
  le_trans p q r first second := by
    change p.line < q.line ∨ p.line = q.line ∧ p.column ≤ q.column at first
    change q.line < r.line ∨ q.line = r.line ∧ q.column ≤ r.column at second
    change p.line < r.line ∨ p.line = r.line ∧ p.column ≤ r.column
    omega
  le_antisymm p q first second := by
    change p.line < q.line ∨ p.line = q.line ∧ p.column ≤ q.column at first
    change q.line < p.line ∨ q.line = p.line ∧ q.column ≤ p.column at second
    obtain ⟨line, column⟩ := p
    obtain ⟨otherLine, otherColumn⟩ := q
    dsimp only at first second
    obtain rfl : line = otherLine := by omega
    obtain rfl : column = otherColumn := by omega
    rfl

/-- A character leads to a later position. -/
theorem lt_advance (p : Position) (c : Char) : p < p.advance c := by
  rw [lt_iff_le_not_ge, advance]
  change (p.line < _ ∨ p.line = _ ∧ p.column ≤ _) ∧ ¬ (_ < p.line ∨ _ = p.line ∧ _ ≤ p.column)
  split <;> dsimp only <;> omega

/-- More characters lead to no earlier position. -/
theorem le_foldl_advance (more : List Char) (p : Position) : p ≤ more.foldl advance p := by
  induction more generalizing p with
  | nil => exact le_refl p
  | cons c rest ih =>
    have step : p ≤ p.advance c := le_of_lt (lt_advance p c)
    exact le_trans step (ih (p.advance c))

/-- The position after a text is later with more characters. -/
theorem after_lt_append (front : List Char) {more : List Char} (some : more ≠ []) :
    after front < after (front ++ more) := by
  obtain ⟨c, rest, rfl⟩ := List.exists_cons_of_ne_nil some
  rw [after, after, List.foldl_append, List.foldl_cons]
  have step : front.foldl advance start < (front.foldl advance start).advance c := lt_advance _ c
  exact lt_of_lt_of_le step (le_foldl_advance rest _)

/-- The number of bytes that characters take up. -/
def byteSize (chars : List Char) : Nat := (String.ofList chars).utf8ByteSize

/-- Characters take up their bytes one after the other. -/
theorem byteSize_cons (c : Char) (rest : List Char) :
    byteSize (c :: rest) = c.utf8Size + byteSize rest := by
  rw [byteSize, byteSize, String.ofList_cons, String.utf8ByteSize_append,
    String.utf8ByteSize_singleton]

/-- Texts take up their bytes one after the other. -/
theorem byteSize_append (front more : List Char) :
    byteSize (front ++ more) = byteSize front + byteSize more := by
  rw [byteSize, byteSize, byteSize, String.ofList_append, String.utf8ByteSize_append]

/-- Every character takes up some bytes. -/
theorem byteSize_pos {more : List Char} (some : more ≠ []) : 0 < byteSize more := by
  obtain ⟨c, rest, rfl⟩ := List.exists_cons_of_ne_nil some
  have positive : 0 < c.utf8Size := c.utf8Size_pos
  rw [byteSize_cons]
  omega

/-- Of two fronts of a text the one with fewer bytes is before the other, and its end has the
earlier position. -/
theorem after_compare {front other text : List Char} (one : front <+: text) (two : other <+: text) :
    (after front = after other ↔ byteSize front = byteSize other) ∧
      (after front < after other ↔ byteSize front < byteSize other) := by
  -- one of the fronts goes on to the other; if it is not the same, both orders are strict
  have strict : ∀ {less more : List Char}, less <+: more → less ≠ more →
      after less < after more ∧ byteSize less < byteSize more := by
    rintro less _ ⟨rest, rfl⟩ different
    have some : rest ≠ [] := by
      rintro rfl
      exact different (List.append_nil less).symm
    have positive : 0 < byteSize rest := byteSize_pos some
    rw [byteSize_append]
    exact ⟨after_lt_append less some, by omega⟩
  by_cases same : front = other
  · rw [same]
    exact ⟨⟨fun _ => rfl, fun _ => rfl⟩, ⟨fun less => absurd less (lt_irrefl _),
      fun less => absurd less (Nat.lt_irrefl _)⟩⟩
  · rcases List.prefix_or_prefix_of_prefix one two with goesOn | goesOn
    · obtain ⟨earlier, fewer⟩ := strict goesOn same
      exact ⟨⟨fun equal => absurd equal (ne_of_lt earlier), fun equal => absurd equal (by omega)⟩,
        ⟨fun _ => fewer, fun _ => earlier⟩⟩
    · obtain ⟨earlier, fewer⟩ := strict goesOn (Ne.symm same)
      exact ⟨⟨fun equal => absurd equal.symm (ne_of_lt earlier),
          fun equal => absurd equal (by omega)⟩,
        ⟨fun less => absurd less (lt_asymm earlier), fun less => absurd less (by omega)⟩⟩

/-- The characters within a number of bytes are the front of the text. -/
theorem takeBytes_front (bytes : Nat) (text : List Char) : takeBytes bytes text <+: text := by
  induction text generalizing bytes with
  | nil => exact List.prefix_refl []
  | cons c rest ih =>
    rw [takeBytes]
    split
    · exact List.cons_prefix_cons.2 ⟨rfl, ih (bytes - c.utf8Size)⟩
    · exact List.nil_prefix

/-- The characters within a number of bytes do not take up more. -/
theorem byteSize_takeBytes_le (bytes : Nat) (text : List Char) :
    byteSize (takeBytes bytes text) ≤ bytes := by
  induction text generalizing bytes with
  | nil => exact Nat.zero_le bytes
  | cons c rest ih =>
    rw [takeBytes]
    split
    · next fits =>
      have left : byteSize (takeBytes (bytes - c.utf8Size) rest) ≤ bytes - c.utf8Size := ih _
      rw [byteSize_cons]
      omega
    · exact Nat.zero_le bytes

/-- No front of the text within a number of bytes takes up more than the characters that are
taken. -/
theorem byteSize_le_takeBytes {front text : List Char} {bytes : Nat} (isFront : front <+: text)
    (fits : byteSize front ≤ bytes) : byteSize front ≤ byteSize (takeBytes bytes text) := by
  induction front generalizing text bytes with
  | nil => exact Nat.zero_le _
  | cons c more ih =>
    obtain ⟨rest, rfl⟩ := isFront
    rw [byteSize_cons] at fits
    have first : c.utf8Size ≤ bytes := by omega
    have others : byteSize more ≤ bytes - c.utf8Size := by omega
    rw [List.cons_append, takeBytes, if_pos first, byteSize_cons, byteSize_cons]
    exact Nat.add_le_add_left (ih (List.prefix_append more rest) others) _

/-- The last boundary of a character that is not after an offset, searched downwards. -/
def lastBoundary (text : String) : Nat → Nat
  | 0 => 0
  | offset + 1 =>
    if (String.Pos.Raw.mk (offset + 1)).isValid text then offset + 1 else lastBoundary text offset

/-- The place that an offset stands for: the end of the text if the offset is beyond it, and the
beginning of a character if it is inside. -/
def boundary (text : String) (offset : Nat) : Nat :=
  lastBoundary text (min offset text.utf8ByteSize)

/-- The boundaries of a text are where its fronts end. -/
theorem isValid_iff {text : String} {offset : Nat} :
    (String.Pos.Raw.mk offset).isValid text = true ↔
      ∃ front, front <+: text.toList ∧ byteSize front = offset := by
  rw [String.Pos.Raw.isValid_eq_true_iff, String.Pos.Raw.isValid_iff_exists_append]
  constructor
  · rintro ⟨front, rest, rfl, place⟩
    refine ⟨front.toList, ⟨rest.toList, String.toList_append.symm⟩, ?_⟩
    rw [byteSize, String.ofList_toList]
    exact (congrArg String.Pos.Raw.byteIdx place).symm
  · rintro ⟨front, ⟨rest, split⟩, rfl⟩
    refine ⟨String.ofList front, String.ofList rest, ?_, rfl⟩
    rw [← String.ofList_append, split, String.ofList_toList]

/-- The last boundary up to an offset is where the characters end that are within it. -/
theorem lastBoundary_eq (text : String) (offset : Nat) :
    lastBoundary text offset = byteSize (takeBytes offset text.toList) := by
  induction offset with
  | zero =>
    have fits := byteSize_takeBytes_le 0 text.toList
    rw [lastBoundary]
    omega
  | succ offset ih =>
    have taken := takeBytes_front (offset + 1) text.toList
    have fits := byteSize_takeBytes_le (offset + 1) text.toList
    rw [lastBoundary]
    split
    · next valid =>
      obtain ⟨front, isFront, size⟩ := isValid_iff.1 valid
      have greatest := byteSize_le_takeBytes isFront (Nat.le_of_eq size)
      omega
    · next inside =>
      -- nothing ends at this offset, so the same characters are within it and the one before
      have other : byteSize (takeBytes (offset + 1) text.toList) ≠ offset + 1 := fun size =>
        inside (isValid_iff.2 ⟨_, taken, size⟩)
      have before := takeBytes_front offset text.toList
      have less := byteSize_takeBytes_le offset text.toList
      have forth := byteSize_le_takeBytes taken (show _ ≤ offset by omega)
      have back := byteSize_le_takeBytes before (show _ ≤ offset + 1 by omega)
      omega

/-- The place that an offset stands for is where the characters end that are within it. -/
theorem boundary_eq (text : String) (offset : Nat) :
    boundary text offset = byteSize (takeBytes offset text.toList) := by
  have taken := takeBytes_front offset text.toList
  have fits := byteSize_takeBytes_le offset text.toList
  have inText : byteSize (takeBytes offset text.toList) ≤ text.utf8ByteSize := by
    obtain ⟨rest, split⟩ := taken
    have whole : byteSize text.toList = text.utf8ByteSize := by
      rw [byteSize, String.ofList_toList]
    rw [← split, byteSize_append] at whole
    omega
  rw [boundary, lastBoundary_eq]
  generalize cut : min offset text.utf8ByteSize = clamped
  have less := byteSize_takeBytes_le clamped text.toList
  have forth := byteSize_le_takeBytes taken (show _ ≤ clamped by omega)
  have back := byteSize_le_takeBytes (takeBytes_front clamped text.toList)
    (show _ ≤ offset by omega)
  omega

/-- A later offset stands for no earlier place. -/
theorem boundary_mono (text : String) {first second : Nat} (ordered : first ≤ second) :
    boundary text first ≤ boundary text second := by
  have fits := byteSize_takeBytes_le first text.toList
  rw [boundary_eq, boundary_eq]
  exact byteSize_le_takeBytes (takeBytes_front first text.toList) (Nat.le_trans fits ordered)

/-- The positions of offsets are ordered as the places in the text. A later offset has no earlier
position. Two offsets have one position exactly when they stand for one place, that is, if they are
cut to the length of the text and taken back to a boundary of a character; and the position of the
one is before that of the other exactly when its place is. -/
theorem atByte_order (text : String) (first second : Nat) :
    (first ≤ second → atByte text first ≤ atByte text second) ∧
      (atByte text first = atByte text second ↔ boundary text first = boundary text second) ∧
      (atByte text first < atByte text second ↔ boundary text first < boundary text second) := by
  have ⟨same, before⟩ := after_compare (takeBytes_front first text.toList)
    (takeBytes_front second text.toList)
  rw [← boundary_eq, ← boundary_eq] at same before
  refine ⟨fun ordered => ?_, same, before⟩
  rcases Nat.lt_or_eq_of_le (boundary_mono text ordered) with less | equal
  · exact le_of_lt (before.2 less)
  · exact le_of_eq (same.2 equal)

/-- An offset inside a character has the position of its beginning, which is before that of the
offset beyond the text. -/
theorem atByte_order_accent :
    atByte "ab\ncdé\nf" 6 ≤ atByte "ab\ncdé\nf" 100 ∧
      atByte "ab\ncdé\nf" 6 = atByte "ab\ncdé\nf" 5 ∧
      atByte "ab\ncdé\nf" 6 < atByte "ab\ncdé\nf" 7 := by
  obtain ⟨ordered, -, -⟩ := atByte_order "ab\ncdé\nf" 6 100
  obtain ⟨-, same, -⟩ := atByte_order "ab\ncdé\nf" 6 5
  obtain ⟨-, -, before⟩ := atByte_order "ab\ncdé\nf" 6 7
  exact ⟨ordered (by decide), same.2 (by decide +kernel), before.2 (by decide +kernel)⟩

end Synopsis.Position

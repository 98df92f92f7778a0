import Mathlib.Data.List.TakeWhile
import Synopsis.Proofs.Position.Order

/-!
# Slices by byte offsets

A text is cut at a byte offset only where a character begins or the text ends, and a number is taken
away only from one that is no smaller. Where this is not so, the operations here have no result. The
place where the rest of a text begins is always one where the text can be cut.
-/
namespace Synopsis.Position

/-- A number less another one, if that is no larger. -/
def less? (number other : Nat) : Option Nat :=
  if other ≤ number then some (number - other) else none

/-- The text from a byte offset on, if that is a boundary of a character. -/
def sliceFrom? (text : List Char) (offset : Nat) : Option (List Char) :=
  if (String.Pos.Raw.mk offset).isValid (String.ofList text) then
    some (text.drop (takeBytes offset text).length)
  else none

/-- The text up to a byte offset, if that is a boundary of a character. -/
def sliceTo? (text : List Char) (offset : Nat) : Option (List Char) :=
  if (String.Pos.Raw.mk offset).isValid (String.ofList text) then some (takeBytes offset text)
  else none

/-- The byte offset at which the rest of a text begins. -/
def offsetOf (text rest : List Char) : Nat := byteSize text - byteSize rest

/-- The byte offset of the first occurrence of a character. -/
def placeOf? (c : Char) (text : List Char) : Option Nat :=
  if c ∈ text then some (byteSize (text.takeWhile fun d => d ≠ c)) else none

/-- The rest of a text begins after the bytes before it. -/
theorem offsetOf_append (front rest : List Char) :
    offsetOf (front ++ rest) rest = byteSize front := by
  rw [offsetOf, byteSize_append, Nat.add_sub_cancel]

/-- A number is taken away from one that it is a part of. -/
theorem less?_eq_some_iff {number other left : Nat} :
    less? number other = some left ↔ number = other + left := by
  rw [less?]
  split
  · rw [Option.some.injEq]
    omega
  · next more => exact iff_of_false nofun (by omega)

/-- A text can be cut at an offset exactly if a front of it takes up as many bytes, and that is what
is taken. -/
theorem isValid_iff_append {text : List Char} {offset : Nat} :
    (String.Pos.Raw.mk offset).isValid (String.ofList text) = true ↔
      ∃ front rest, text = front ++ rest ∧ byteSize front = offset ∧
        takeBytes offset text = front := by
  rw [isValid_iff, String.toList_ofList]
  constructor
  · rintro ⟨front, ⟨rest, rfl⟩, rfl⟩
    exact ⟨front, rest, rfl, rfl, takeBytes_append front rest⟩
  · rintro ⟨front, rest, rfl, size, -⟩
    exact ⟨front, List.prefix_append front rest, size⟩

/-- A text can be cut where it is put together, and the front is taken. -/
theorem cut_append (front rest : List Char) :
    (String.Pos.Raw.mk (byteSize front)).isValid (String.ofList (front ++ rest)) = true ∧
      takeBytes (byteSize front) (front ++ rest) = front := by
  have taken : takeBytes (byteSize front) (front ++ rest) = front := takeBytes_append front rest
  exact ⟨isValid_iff_append.2 ⟨front, rest, rfl, rfl, taken⟩, taken⟩

/-- What is left from an offset on comes after as many bytes. -/
theorem sliceFrom?_eq_some_iff {text rest : List Char} {offset : Nat} :
    sliceFrom? text offset = some rest ↔
      ∃ front, text = front ++ rest ∧ byteSize front = offset := by
  constructor
  · intro sliced
    rw [sliceFrom?] at sliced
    split at sliced
    · next valid =>
      obtain ⟨front, later, rfl, size, taken⟩ := isValid_iff_append.1 valid
      rw [taken, List.drop_left' rfl] at sliced
      exact ⟨front, by rw [Option.some.inj sliced], size⟩
    · contradiction
  · rintro ⟨front, rfl, rfl⟩
    obtain ⟨valid, taken⟩ := cut_append front rest
    rw [sliceFrom?, if_pos valid, taken, List.drop_left' rfl]

/-- What is taken up to an offset comes first and takes up as many bytes. -/
theorem sliceTo?_eq_some_iff {text front : List Char} {offset : Nat} :
    sliceTo? text offset = some front ↔
      ∃ rest, text = front ++ rest ∧ byteSize front = offset := by
  constructor
  · intro sliced
    rw [sliceTo?] at sliced
    split at sliced
    · next valid =>
      obtain ⟨own, later, rfl, size, taken⟩ := isValid_iff_append.1 valid
      obtain rfl := taken.symm.trans (Option.some.inj sliced)
      exact ⟨later, rfl, size⟩
    · contradiction
  · rintro ⟨rest, rfl, rfl⟩
    obtain ⟨valid, taken⟩ := cut_append front rest
    rw [sliceTo?, if_pos valid, taken]

/-- A text is not cut inside a character. -/
example : sliceFrom? ['a', 'é', 'b'] 2 = none ∧ sliceFrom? ['a', 'é', 'b'] 3 = some ['b'] := by
  decide +kernel

/-- What is left of a text begins where the text can be cut. -/
theorem sliceFrom?_offsetOf {text rest : List Char} (suffix : rest <:+ text) :
    sliceFrom? text (offsetOf text rest) = some rest := by
  obtain ⟨front, rfl⟩ := suffix
  exact sliceFrom?_eq_some_iff.2 ⟨front, rfl, (offsetOf_append front rest).symm⟩

/-- What is left of a text begins within it. -/
theorem offsetOf_le (text rest : List Char) : offsetOf text rest ≤ byteSize text := Nat.sub_le _ _

/-- The places in what is left of a text are counted from its place. -/
theorem offsetOf_add {text middle rest : List Char} (first : middle <:+ text)
    (second : rest <:+ middle) :
    offsetOf text middle + offsetOf middle rest = offsetOf text rest := by
  obtain ⟨front, rfl⟩ := first
  obtain ⟨more, rfl⟩ := second
  have joined := offsetOf_append (front ++ more) rest
  rw [List.append_assoc] at joined
  rw [offsetOf_append, offsetOf_append, joined, byteSize_append]

/-- What is left later begins at no earlier place. -/
theorem offsetOf_mono {text middle rest : List Char} (first : middle <:+ text)
    (second : rest <:+ middle) : offsetOf text middle ≤ offsetOf text rest := by
  rw [← offsetOf_add first second]
  exact Nat.le_add_right _ _

/-- What is left after reading something begins at a later place. -/
theorem offsetOf_lt {text middle rest : List Char} (first : middle <:+ text)
    (second : Text.Advances middle rest) : offsetOf text middle < offsetOf text rest := by
  rw [← offsetOf_add first second.suffix]
  have shorter := second.shorter
  obtain ⟨read, rfl⟩ := second.suffix
  have positive : 0 < byteSize read := byteSize_pos fun none => by simp [none] at shorter
  rw [offsetOf_append]
  omega

/-- The place of what is left is taken away from one that is no earlier. -/
theorem less?_offsetOf {text middle rest : List Char} (first : middle <:+ text)
    (second : rest <:+ middle) :
    less? (offsetOf text rest) (offsetOf text middle) = some (offsetOf middle rest) :=
  less?_eq_some_iff.2 (offsetOf_add first second).symm

/-- A character occurs first after a text without it. -/
theorem placeOf?_append {c : Char} {front : List Char} (absent : c ∉ front) (rest : List Char) :
    placeOf? c (front ++ c :: rest) = some (byteSize front) := by
  have other : ∀ d ∈ front, decide (d ≠ c) = true := fun d mem =>
    decide_eq_true fun same => absent (same ▸ mem)
  rw [placeOf?, if_pos (by simp), List.takeWhile_append_of_pos other,
    List.takeWhile_cons_of_neg (by simp), List.append_nil]

/-- A text is cut before its first occurrence of a character, or at its end. -/
theorem placeOf?_getD (c : Char) (text : List Char) :
    (placeOf? c text).getD (byteSize text) = byteSize (text.takeWhile fun d => d ≠ c) := by
  rw [placeOf?]
  split
  · rfl
  · next absent =>
    have all : ∀ d ∈ text, decide (d ≠ c) = true := fun d mem =>
      decide_eq_true fun same => absent (same ▸ mem)
    rw [Option.getD_none, List.takeWhile_eq_self_iff.2 all]

/-- A text is cut where the characters of a class end at its front. -/
theorem sliceTo?_takeWhile (inside : Char → Bool) (text : List Char) :
    sliceTo? text (byteSize (text.takeWhile inside)) = some (text.takeWhile inside) :=
  sliceTo?_eq_some_iff.2 ⟨text.dropWhile inside, List.takeWhile_append_dropWhile.symm, rfl⟩

/-- The offset of what is left of a text stands for its position. -/
theorem atByte_offsetOf {text rest : List Char} (suffix : rest <:+ text) :
    atByte (String.ofList text) (offsetOf text rest) = before text rest := by
  obtain ⟨front, rfl⟩ := suffix
  rw [offsetOf_append, byteSize, atByte_eq_before (by rw [String.toList_ofList]),
    String.toList_ofList]

end Synopsis.Position

/-!
# Sets of characters given by ranges

A character property is kept as an increasing list of code point ranges, so that a
look-up stops at the first range beyond the character.
-/
namespace Synopsis.Text

/-- Whether a code point lies in one of the ranges, which are disjoint and increasing; both ends
of a range belong to it. -/
def inRanges (code : Nat) : List (Nat × Nat) → Bool
  | [] => false
  | (first, last) :: later =>
    if code < first then false
    else if code ≤ last then true
    else inRanges code later

/-- Each range ends before the next one begins, with at least one code point between them. -/
def separated : List (Nat × Nat) → Bool
  | (first, last) :: (next, stop) :: later =>
    first ≤ last && last + 1 < next && separated ((next, stop) :: later)
  | [(first, last)] => first ≤ last
  | [] => true

/-- A code point found in the ranges lies between the ends of one of them. -/
theorem exists_of_inRanges {code : Nat} {ranges : List (Nat × Nat)}
    (found : inRanges code ranges = true) :
    ∃ range ∈ ranges, range.1 ≤ code ∧ code ≤ range.2 := by
  induction ranges with
  | nil => simp [inRanges] at found
  | cons range later ih =>
    obtain ⟨first, last⟩ := range
    unfold inRanges at found
    split at found
    · exact absurd found (by decide)
    · split at found
      · exact ⟨(first, last), by simp, by dsimp only; omega⟩
      · obtain ⟨other, mem, bounds⟩ := ih found
        exact ⟨other, List.mem_cons_of_mem _ mem, bounds⟩

end Synopsis.Text

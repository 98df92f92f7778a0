import Synopsis.Pattern

/-!
# Repetition of leaves

Whether a leaf may occur more than once in what a pattern describes, judged on the tree alone.
-/
namespace Synopsis.Pattern

variable {α : Type} [DecidableEq α]

mutual

/-- Whether a leaf may occur more than once. It may in a repeated body that holds it, in a
sequence with several leaves like it, and wherever it may in a part, branch or body. -/
def mayRepeat (target : α) : Pattern α → Bool
  | .seq parts => anyMayRepeat target parts || decide (1 < (leavesOf parts).count target)
  | .alt branches => anyMayRepeat target branches
  | .opt body => mayRepeat target body
  | .rep body => decide (target ∈ body.leaves)
  | .leaf _ => false

/-- Whether the leaf may occur more than once in a pattern of the list. -/
def anyMayRepeat (target : α) : List (Pattern α) → Bool
  | [] => false
  | first :: later => mayRepeat target first || anyMayRepeat target later

end

/-- A leaf may repeat in a list of patterns if it may in one of them. -/
theorem anyMayRepeat_eq (target : α) (patterns : List (Pattern α)) :
    anyMayRepeat target patterns = patterns.any (mayRepeat target) := by
  induction patterns with
  | nil => rfl
  | cons first later ih => rw [anyMayRepeat, ih, List.any_cons]

end Synopsis.Pattern

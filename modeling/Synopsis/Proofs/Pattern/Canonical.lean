import Mathlib.Data.List.Chain
import Synopsis.Pattern.Spelling
import Synopsis.Proofs.Pattern.Node
import Synopsis.Text.Blank
import Synopsis.Usage.Option

/-!
# Canonical patterns

A canonical pattern is one that its own spelling describes. Leaves are spelled as themselves,
groups have several children, and no bracket is left out that a reader would need. The conditions
are on single nodes and their children. An empty sequence has no spelling, so no sequence and no
repetition holds one; it may be the whole pattern, a branch, or an optional body.
-/
namespace Synopsis.Pattern

open Text (isBlank)
open Usage (isCapitalChar)

/-- Whether the root is a repeated body. -/
def isRepeated {α : Type} : Pattern α → Bool
  | .rep _ => true
  | _ => false

/-- Whether the pattern is a single option. -/
def isOptionLeaf : Pattern Atom → Bool
  | .leaf atom => atom.isOption
  | _ => false

/-- Whether a name is a capital letter followed by capitals, digits, hyphens and underscores. -/
def isCapitals : List Char → Bool
  | c :: rest => c.isUpper && rest.all isCapitalChar
  | [] => false

/-- Whether an atom is spelled like the placeholder of a value. -/
def isPlaceholder : Atom → Bool
  | .argument _ => true
  | .command name => isCapitals name.toList
  | _ => false

/-- Whether the pattern is spelled like the placeholder of a value, repeated or not. -/
def startsWithPlaceholder : Pattern Atom → Bool
  | .leaf atom => isPlaceholder atom
  | .rep (.leaf atom) => isPlaceholder atom
  | _ => false

/-- A part may follow another in a sequence unless it would be taken for the other's value. -/
def MayFollow (first second : Pattern Atom) : Prop :=
  first.isOptionLeaf = true → second.startsWithPlaceholder = false

instance : DecidableRel MayFollow := fun first second =>
  inferInstanceAs (Decidable (first.isOptionLeaf = true → second.startsWithPlaceholder = false))

/-- What a canonical pattern satisfies at one node. -/
def CanonicalNode : Pattern Atom → Prop
  | .seq parts =>
    parts.length ≠ 1 ∧ (∀ part ∈ parts, part.isSequence = false) ∧ parts.IsChain MayFollow
  | .alt branches => 2 ≤ branches.length
  | .opt _ => True
  | .rep body => body.isRepeated = false ∧ body ≠ .seq []
  | .leaf atom => atom.wellFormed = true ∧ atom ≠ .options ∧ atom ≠ .command "options"

instance : DecidablePred CanonicalNode
  | .seq parts => inferInstanceAs (Decidable (parts.length ≠ 1 ∧
      (∀ part ∈ parts, part.isSequence = false) ∧ parts.IsChain MayFollow))
  | .alt branches => inferInstanceAs (Decidable (2 ≤ branches.length))
  | .opt _ => inferInstanceAs (Decidable True)
  | .rep body => inferInstanceAs (Decidable (body.isRepeated = false ∧ body ≠ .seq []))
  | .leaf atom => inferInstanceAs (Decidable (atom.wellFormed = true ∧ atom ≠ .options ∧
      atom ≠ .command "options"))

/-- A pattern that its own spelling describes. -/
abbrev Canonical (pattern : Pattern Atom) : Prop := pattern.Everywhere CanonicalNode

end Synopsis.Pattern

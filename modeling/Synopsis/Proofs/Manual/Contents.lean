import Synopsis.Proofs.Description.Record
import Synopsis.Proofs.Manual.Records
import Synopsis.Proofs.Manual.Sound
import Synopsis.Proofs.Usage.Cut

/-!
# What a read catalog holds

A catalog is filled from two places: from the options that are mentioned in the usage lines, and
from the records below them. A record replaces what is there for each spelling that it lists, so
the catalog holds for an atom what the last record says that lists it. Only for the options that no
record lists it tells what the usage lines show.
-/
namespace Synopsis

namespace Usage

open Text

/-- A usage is read of a line. -/
def IsUsage (line : List Char) (usage : Fragment) : Prop :=
  ∃ rest, usageLine line = .ok (usage, rest)

/-- What follows the blanks and the name of the program in a line is cut into pieces up to the end
of the line. -/
def IsCut (pieces : List Piece) (line : List Char) : Prop :=
  ∃ blanks program rest, LineCut line blanks program pieces rest

namespace Block

/-- The usages of a block are read of its first lines one by one, each of which is cut into pieces
that stand for it. -/
theorem Taken.cuts {anyway : Bool} {lines : List (List Char)} {block : Block}
    (taken : Taken anyway lines block) :
    ∃ first : List (List Char), ∃ cuts : List (List Piece), first <+: lines ∧
      List.Forall₂ IsUsage first block.usages ∧ List.Forall₂ IsCut cuts first ∧
      Shows cuts.flatten block.usages := by
  induction taken with
  | all anyway => exact ⟨[], [], List.nil_prefix, .nil, .nil, rfl, rfl⟩
  | stop ends => exact ⟨[], [], List.nil_prefix, .nil, .nil, rfl, rfl⟩
  | @usage anyway line rest later found block counts one whole more ih =>
    obtain ⟨first, cuts, front, read, cut, shows⟩ := ih
    obtain ⟨blanks, program, pieces, own, ownShows⟩ := lineCut_of_usageLine one
    exact ⟨line :: first, pieces :: cuts, List.cons_prefix_cons.2 ⟨rfl, front⟩,
      .cons ⟨rest, one⟩ read, .cons ⟨blanks, program, rest, own⟩ cut, ownShows.append shows⟩
  | @part anyway line rest later found counts one left ends =>
    obtain ⟨blanks, program, pieces, own, ownShows⟩ := lineCut_of_usageLine one
    refine ⟨[line], [pieces], List.cons_prefix_cons.2 ⟨rfl, List.nil_prefix⟩,
      .cons ⟨rest, one⟩ .nil, .cons ⟨blanks, program, rest, own⟩ .nil, ?_⟩
    rw [List.flatten_singleton]
    exact ownShows

end Block

end Usage

namespace Description

end Description

namespace Manual

end Manual

end Synopsis

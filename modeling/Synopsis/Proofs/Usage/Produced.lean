import Synopsis.Proofs.Pattern.Flat
import Synopsis.Proofs.Usage.Accepted
import Synopsis.Usage.Block

/-!
# What usage lines are made of

Whatever stands in a usage line, the fragment that is read of it is built from simple expressions
by sequences, choices, square brackets and ellipses. A choice always has a branch. So what these
keep holds of every usage block; in particular its pattern is flat.
-/
namespace Synopsis.Usage

/-- A fragment built as usage lines build theirs. -/
inductive Produced : Fragment → Prop where
  /-- An expression without brackets around alternatives. -/
  | simple {text rest : List Char} {fragment : Fragment}
      (read : simple? text = some (fragment, rest)) : Produced fragment
  /-- Expressions in order. -/
  | sequence {parts : List Fragment} (each : ∀ part ∈ parts, Produced part) :
      Produced (.sequence parts)
  /-- One branch or more. -/
  | choice {branches : List Fragment} (some : branches ≠ [])
      (each : ∀ branch ∈ branches, Produced branch) : Produced (.choice branches)
  /-- Something in square brackets. -/
  | optional {body : Fragment} (inside : Produced body) : Produced body.optional
  /-- Something with an ellipsis. -/
  | repeated {body : Fragment} (inside : Produced body) : Produced body.repeated

/-- Fragments built so, wherever they stand. -/
abbrev builds : Extent := fun fragment _ _ => Produced fragment

/-- Each of the expressions after the first one is built so. -/
theorem produced_of_spaced {fragments : List Fragment} {text last : List Char}
    (spaced : Spaced builds fragments text last) : ∀ part ∈ fragments, Produced part := by
  induction spaced with
  | none text => exact fun part mem => absurd mem List.not_mem_nil
  | next blank one more ih => exact List.forall_mem_cons.2 ⟨one, ih⟩

/-- The sequence of some expressions is built so. -/
theorem produced_of_inOrder {parts : List Fragment} {text last : List Char}
    (ordered : InOrder builds parts text last) : Produced (.sequence parts) := by
  cases ordered with
  | none text => exact .sequence fun part mem => absurd mem List.not_mem_nil
  | some one more =>
    exact .sequence (List.forall_mem_cons.2 ⟨one, produced_of_spaced more⟩)

/-- Each of the branches after the first one is built so. -/
theorem produced_of_barred {branches : List Fragment} {text last : List Char}
    (barred : Barred builds branches text last) : ∀ branch ∈ branches, Produced branch := by
  induction barred with
  | none text => exact fun branch mem => absurd mem List.not_mem_nil
  | next bar one more ih => exact List.forall_mem_cons.2 ⟨produced_of_inOrder one, ih⟩

/-- The choice of some branches is built so. -/
theorem produced_of_branched {fragment : Fragment} {text last : List Char}
    (branched : Branched builds fragment text last) : Produced fragment := by
  cases branched with
  | choice one more =>
    refine .choice (List.cons_ne_nil _ _) (List.forall_mem_cons.2 ⟨?_, produced_of_barred more⟩)
    exact produced_of_inOrder one

/-- An expression with something built so in its brackets is built so. -/
theorem produced_of_expressed {text last : List Char} {fragment : Fragment}
    (expressed : Expressed builds fragment text last) : Produced fragment := by
  have unit : ∀ {body : Fragment} {rest : List Char}, Unit builds body text rest →
      Produced body := by
    intro body rest one
    cases one with
    | simple read => exact .simple read
    | square inside closed => exact .optional (produced_of_branched inside)
    | round inside closed => exact produced_of_branched inside
  cases expressed with
  | once one => exact unit one
  | often one dots => exact .repeated (unit one)

/-- The fragment of a usage line is built so. -/
theorem produced_of_usageLine {line rest : List Char} {fragment : Fragment}
    (done : usageLine line = .ok (fragment, rest)) : Produced fragment := by
  obtain ⟨left, branched, -⟩ := usageLine_accepts produced_of_expressed done
  exact produced_of_branched branched

namespace Block

/-- Every usage of a block is the fragment of some usage line. -/
theorem Taken.usageLine {anyway : Bool} {lines : List (List Char)} {block : Block}
    (taken : Taken anyway lines block) :
    ∀ usage ∈ block.usages, ∃ line rest, usageLine line = .ok (usage, rest) := by
  induction taken with
  | all anyway => exact fun usage mem => absurd mem List.not_mem_nil
  | stop ends => exact fun usage mem => absurd mem List.not_mem_nil
  | usage counts one whole more ih => exact List.forall_mem_cons.2 ⟨⟨_, _, one⟩, ih⟩
  | part counts one left ends => exact List.forall_mem_singleton.2 ⟨_, _, one⟩

/-- A block that is read has a usage, and every usage is the fragment of some usage line. -/
theorem usages_of_ofText {text : List Char} {block : Block} (done : ofText text = .ok block) :
    block.usages ≠ [] ∧
      ∀ usage ∈ block.usages, ∃ line rest, usageLine line = .ok (usage, rest) := by
  rw [ofText] at done
  split at done
  · contradiction
  · split at done
    · contradiction
    · next found read =>
      split at done
      · contradiction
      · next some =>
        obtain rfl := Except.ok.inj done
        refine ⟨fun none => some (List.isEmpty_iff.2 none), ?_⟩
        rw [afterHeader] at read
        split at read <;> exact (ofLines_eq_ok_iff.1 read).usageLine

/-- The fragment of a whole block is built as usage lines are. -/
theorem produced_fragment {text : List Char} {block : Block} (done : ofText text = .ok block) :
    Produced block.fragment := by
  obtain ⟨some, each⟩ := usages_of_ofText done
  refine .choice some fun usage mem => ?_
  obtain ⟨line, rest, read⟩ := each usage mem
  exact produced_of_usageLine read

end Block

/-- The pattern of a simple expression is flat. -/
theorem flat_of_simple? {text rest : List Char} {fragment : Fragment}
    (read : simple? text = some (fragment, rest)) : fragment.pattern.Flat := by
  have mentioned : ∀ mentions, (Fragment.ofMentions mentions).pattern.Flat := by
    intro mentions
    unfold Fragment.ofMentions
    split
    · exact Pattern.flat_leaf _
    · refine Pattern.everywhere_rep.2 ⟨rfl, Pattern.flat_choice fun branch mem => ?_⟩
      obtain ⟨found, -, rfl⟩ := List.mem_map.1 mem
      exact Pattern.flat_leaf _
  unfold simple? at read
  repeat' split at read
  · obtain ⟨rfl, -⟩ := Prod.mk.inj (Option.some.inj read)
    exact mentioned _
  · obtain ⟨rfl, -⟩ := Prod.mk.inj (Option.some.inj read)
    exact mentioned _
  · obtain ⟨rfl, -⟩ := Prod.mk.inj (Option.some.inj read)
    exact Pattern.everywhere_rep.2 ⟨rfl, Pattern.flat_leaf _⟩
  · obtain ⟨rfl, -⟩ := Prod.mk.inj (Option.some.inj read)
    exact Pattern.flat_leaf _
  · obtain ⟨rfl, -⟩ := Prod.mk.inj (Option.some.inj read)
    exact Pattern.flat_leaf _
  · contradiction

/-- No sequence or choice in a fragment of usage lines has a single child. -/
theorem flat_of_produced {fragment : Fragment} (produced : Produced fragment) :
    fragment.pattern.Flat := by
  induction produced with
  | simple read => exact flat_of_simple? read
  | sequence each ih => exact Pattern.flat_sequence (List.forall_mem_map.2 ih)
  | choice some each ih => exact Pattern.flat_choice (List.forall_mem_map.2 ih)
  | optional inside ih => exact Pattern.everywhere_opt.2 ⟨rfl, ih⟩
  | repeated inside ih => exact Pattern.everywhere_rep.2 ⟨rfl, ih⟩

end Synopsis.Usage

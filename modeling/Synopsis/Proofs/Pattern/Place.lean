import Mathlib.Data.List.Nodup
import Synopsis.Pattern
import Synopsis.Proofs.List

/-!
# Places in a pattern

A place is the way to a node from the root, with the number of a child for each step. Every leaf of
a pattern has a place of its own, so a leaf occurs as often as there are places where it stands. A
pattern with a hole in it has a place for what is put into the hole.
-/
namespace Synopsis.Pattern

variable {α : Type}

/-- The children of the root from left to right. -/
def children : Pattern α → List (Pattern α)
  | .seq parts => parts
  | .alt branches => branches
  | .opt body => [body]
  | .rep body => [body]
  | .leaf _ => []

/-- The node at a place, if there is one. -/
def node? (pattern : Pattern α) : List Nat → Option (Pattern α)
  | [] => some pattern
  | step :: place => pattern.children[step]?.bind fun child => child.node? place

/-- A place below a child is one step longer than in the child. -/
theorem node?_cons_eq_some_iff {pattern node : Pattern α} {step : Nat} {place : List Nat} :
    pattern.node? (step :: place) = some node ↔
      ∃ child, pattern.children[step]? = some child ∧ child.node? place = some node := by
  rw [node?, Option.bind_eq_some_iff]

/-- What is at a place of a node is at the joined place. -/
theorem node?_append {pattern node : Pattern α} {above : List Nat}
    (found : pattern.node? above = some node) (place : List Nat) :
    pattern.node? (above ++ place) = node.node? place := by
  induction above generalizing pattern with
  | nil =>
    obtain rfl := Option.some.inj found
    rfl
  | cons step above ih =>
    obtain ⟨child, at_step, below⟩ := node?_cons_eq_some_iff.1 found
    rw [List.cons_append, node?, at_step, Option.bind_some]
    exact ih below

/-- Every child of the root has a place. -/
theorem exists_place_of_mem_children {pattern child : Pattern α} (mem : child ∈ pattern.children) :
    ∃ step, pattern.node? [step] = some child := by
  obtain ⟨step, found⟩ := List.mem_iff_getElem?.1 mem
  exact ⟨step, node?_cons_eq_some_iff.2 ⟨child, found, rfl⟩⟩

mutual

/-- The leaves from left to right, each with its place. -/
def placed : Pattern α → List (List Nat × α)
  | .seq parts => placedFrom 0 parts
  | .alt branches => placedFrom 0 branches
  | .opt body => (placed body).map fun row => (0 :: row.1, row.2)
  | .rep body => (placed body).map fun row => (0 :: row.1, row.2)
  | .leaf atom => [([], atom)]

/-- The leaves of a list of children with their places, if the first child has the number. -/
def placedFrom (step : Nat) : List (Pattern α) → List (List Nat × α)
  | [] => []
  | first :: later =>
    ((placed first).map fun row => (step :: row.1, row.2)) ++ placedFrom (step + 1) later

end

/-- The root has children, or could have some: it is no leaf. -/
def IsGroup (pattern : Pattern α) : Prop := ∀ atom, pattern ≠ .leaf atom

/-- What holds of every leaf, and of a group if it holds of its children, holds of every pattern. -/
theorem induct_children {motive : Pattern α → Prop} (leaf : ∀ atom, motive (.leaf atom))
    (group : ∀ pattern : Pattern α, pattern.IsGroup →
      (∀ child ∈ pattern.children, motive child) → motive pattern)
    (pattern : Pattern α) : motive pattern := by
  induction pattern with
  | leaf atom => exact leaf atom
  | seq parts ih => exact group (.seq parts) nofun ih
  | alt branches ih => exact group (.alt branches) nofun ih
  | opt body ih => exact group (.opt body) nofun (List.forall_mem_singleton.2 ih)
  | rep body ih => exact group (.rep body) nofun (List.forall_mem_singleton.2 ih)

/-- The leaves of a group are those of its children. -/
theorem IsGroup.leaves {pattern : Pattern α} (group : pattern.IsGroup) :
    pattern.leaves = leavesOf pattern.children := by
  cases pattern with
  | leaf atom => exact absurd rfl (group atom)
  | seq parts => rfl
  | alt branches => rfl
  | opt body => exact (List.append_nil _).symm
  | rep body => exact (List.append_nil _).symm

/-- The places of the leaves of a group are those in its children. -/
theorem IsGroup.placed {pattern : Pattern α} (group : pattern.IsGroup) :
    pattern.placed = placedFrom 0 pattern.children := by
  cases pattern with
  | leaf atom => exact absurd rfl (group atom)
  | seq parts => rfl
  | alt branches => rfl
  | opt body => exact (List.append_nil _).symm
  | rep body => exact (List.append_nil _).symm

/-- The leaves that are listed with their places are all leaves in order. -/
theorem map_snd_placed (pattern : Pattern α) : pattern.placed.map Prod.snd = pattern.leaves := by
  have children : ∀ (patterns : List (Pattern α)) (step : Nat),
      (∀ child ∈ patterns, child.placed.map Prod.snd = child.leaves) →
      (placedFrom step patterns).map Prod.snd = leavesOf patterns := by
    intro patterns
    induction patterns with
    | nil => exact fun step each => rfl
    | cons first later ih =>
      intro step each
      have ⟨one, others⟩ := List.forall_mem_cons.1 each
      rw [placedFrom, leavesOf, List.map_append, List.map_map, ih (step + 1) others, ← one]
      rfl
  induction pattern using induct_children with
  | leaf atom => rfl
  | group pattern group ih => rw [group.leaves, group.placed, children pattern.children 0 ih]

/-- A leaf is listed below a child with the number of the child before its place there. -/
theorem mem_placedFrom {patterns : List (Pattern α)} {start : Nat} {place : List Nat} {atom : α} :
    (place, atom) ∈ placedFrom start patterns ↔
      ∃ step child below, place = (start + step) :: below ∧ patterns[step]? = some child ∧
        (below, atom) ∈ child.placed := by
  induction patterns generalizing start with
  | nil => simp [placedFrom]
  | cons first later ih =>
    rw [placedFrom, List.mem_append, List.mem_map, ih]
    constructor
    · rintro (⟨⟨below, found⟩, mem, same⟩ | ⟨step, child, below, rfl, found, mem⟩)
      · obtain ⟨rfl, rfl⟩ := Prod.mk.inj same
        exact ⟨0, first, below, rfl, rfl, mem⟩
      · exact ⟨step + 1, child, below, by rw [Nat.add_right_comm, Nat.add_assoc], found, mem⟩
    · rintro ⟨_ | step, child, below, rfl, found, mem⟩
      · obtain rfl := Option.some.inj found
        exact .inl ⟨(below, atom), mem, rfl⟩
      · exact .inr ⟨step, child, below, by rw [Nat.add_right_comm, Nat.add_assoc], found, mem⟩

/-- A leaf is listed with exactly the places where it stands. -/
theorem mem_placed {pattern : Pattern α} {place : List Nat} {atom : α} :
    (place, atom) ∈ pattern.placed ↔ pattern.node? place = some (.leaf atom) := by
  induction pattern using induct_children generalizing place with
  | leaf other =>
    cases place with
    | nil => simp [placed, node?, eq_comm]
    | cons step below => simp [placed, node?, children]
  | group pattern group ih =>
    rw [group.placed, mem_placedFrom]
    cases place with
    | nil => simpa [node?] using group atom
    | cons step below =>
      rw [node?_cons_eq_some_iff]
      constructor
      · rintro ⟨number, child, inside, same, found, mem⟩
        obtain ⟨rfl, rfl⟩ := List.cons.inj same
        rw [Nat.zero_add]
        exact ⟨child, found, (ih child (List.mem_of_getElem? found)).1 mem⟩
      · rintro ⟨child, found, leaf⟩
        exact ⟨step, child, below, by rw [Nat.zero_add], found,
          (ih child (List.mem_of_getElem? found)).2 leaf⟩

/-- No place is listed twice. -/
theorem nodup_placed (pattern : Pattern α) : (pattern.placed.map Prod.fst).Nodup := by
  have children : ∀ (patterns : List (Pattern α)) (start : Nat),
      (∀ child ∈ patterns, (child.placed.map Prod.fst).Nodup) →
      ((placedFrom start patterns).map Prod.fst).Nodup := by
    intro patterns
    induction patterns with
    | nil => exact fun start each => List.nodup_nil
    | cons first later ih =>
      intro start each
      have ⟨one, others⟩ := List.forall_mem_cons.1 each
      have longer : (first.placed.map fun row => (start :: row.1, row.2)).map Prod.fst =
          (first.placed.map Prod.fst).map (start :: ·) := by
        rw [List.map_map, List.map_map]
        rfl
      rw [placedFrom, List.map_append, longer, List.nodup_append]
      refine ⟨one.map List.cons_injective, ih (start + 1) others, ?_⟩
      -- the places in the first child begin with its number, and all others with a larger one
      rintro _ inFirst _ inLater rfl
      obtain ⟨place, -, rfl⟩ := List.mem_map.1 inFirst
      obtain ⟨⟨_, atom⟩, mem, rfl⟩ := List.mem_map.1 inLater
      obtain ⟨step, child, below, same, -⟩ := mem_placedFrom.1 mem
      have number : start = start + 1 + step := (List.cons.inj same).1
      omega
  induction pattern using induct_children with
  | leaf atom => exact List.nodup_singleton _
  | group pattern group ih =>
    rw [group.placed]
    exact children pattern.children 0 ih

/-- An atom is a leaf exactly if there is a place where it stands. -/
theorem mem_leaves_iff_place {pattern : Pattern α} {atom : α} :
    atom ∈ pattern.leaves ↔ ∃ place, pattern.node? place = some (.leaf atom) := by
  rw [← map_snd_placed, List.mem_map]
  constructor
  · rintro ⟨⟨place, _⟩, mem, rfl⟩
    exact ⟨place, mem_placed.1 mem⟩
  · rintro ⟨place, found⟩
    exact ⟨(place, atom), mem_placed.2 found, rfl⟩

/-- An atom is a leaf several times exactly if it stands at two different places. -/
theorem one_lt_count_leaves_iff [DecidableEq α] {pattern : Pattern α} {atom : α} :
    1 < pattern.leaves.count atom ↔
      ∃ one other, one ≠ other ∧ pattern.node? one = some (.leaf atom) ∧
        pattern.node? other = some (.leaf atom) := by
  let rows := pattern.placed.filter fun row => row.2 = atom
  have places : (rows.map Prod.fst).Nodup :=
    (nodup_placed pattern).sublist (List.filter_sublist.map Prod.fst)
  have member : ∀ place, place ∈ rows.map Prod.fst ↔ pattern.node? place = some (.leaf atom) := by
    intro place
    rw [← mem_placed, List.mem_map]
    constructor
    · rintro ⟨⟨_, _⟩, mem, rfl⟩
      obtain ⟨listed, same⟩ := List.mem_filter.1 mem
      obtain rfl := of_decide_eq_true same
      exact listed
    · intro listed
      exact ⟨(place, atom), List.mem_filter.2 ⟨listed, decide_eq_true rfl⟩, rfl⟩
  have number : pattern.leaves.count atom = (rows.map Prod.fst).length := by
    rw [← map_snd_placed, List.count_eq_countP, List.countP_map, List.countP_eq_length_filter,
      List.length_map]
    rfl
  rw [number, one_lt_length_iff_of_nodup places]
  simp only [member]

end Synopsis.Pattern

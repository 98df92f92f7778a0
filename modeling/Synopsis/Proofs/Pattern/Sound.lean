import Synopsis.Atom
import Synopsis.Proofs.Pattern.Node

/-!
# Sound patterns

A sound pattern is one that could have been written: its groups have several members, its leaves
have spellings of their own, and the placeholder for options is always what a repetition repeats.
The building functions keep patterns sound, and so does replacing the other leaves by sound
patterns.
-/
namespace Synopsis.Pattern

/-- What a sound pattern satisfies at one node. The placeholder for options is the child of a
repetition and of nothing else. -/
def SoundNode : Pattern Atom → Prop
  | .seq parts => parts.length ≠ 1 ∧ .leaf .options ∉ parts
  | .alt branches => 2 ≤ branches.length ∧ .leaf .options ∉ branches
  | .opt body => body ≠ .leaf .options
  | .rep _ => True
  | .leaf atom => atom.wellFormed = true ∧ atom ≠ .command "options"

/-- A pattern that could have been written, and not the placeholder for options alone. -/
structure Sound (pattern : Pattern Atom) : Prop where
  /-- The placeholder for options is repeated. -/
  root : pattern ≠ .leaf .options
  /-- Every node is as it must be. -/
  nodes : pattern.Everywhere SoundNode

/-- A well-formed atom is sound unless it is the placeholder for options, or could be taken for
it. -/
theorem sound_leaf {atom : Atom} (formed : atom.wellFormed = true)
    (named : atom ≠ .command "options") (other : atom ≠ .options) : (leaf atom).Sound where
  root same := other (leaf.inj same)
  nodes := everywhere_leaf.2 ⟨formed, named⟩

/-- The placeholder for options is sound where it is repeated. -/
theorem sound_rep_options : (rep (leaf Atom.options)).Sound where
  root := nofun
  nodes := everywhere_rep.2 ⟨trivial, everywhere_leaf.2 ⟨rfl, nofun⟩⟩

/-- What is sound may be left out. -/
theorem Sound.opt {body : Pattern Atom} (sound : body.Sound) : (opt body).Sound where
  root := nofun
  nodes := everywhere_opt.2 ⟨sound.root, sound.nodes⟩

/-- What is sound may be repeated. -/
theorem Sound.rep {body : Pattern Atom} (sound : body.Sound) : (rep body).Sound where
  root := nofun
  nodes := everywhere_rep.2 ⟨trivial, sound.nodes⟩

/-- The placeholder for options is none of some sound patterns. -/
theorem options_not_mem_of_sound {patterns : List (Pattern Atom)}
    (sound : ∀ child ∈ patterns, child.Sound) : .leaf .options ∉ patterns :=
  fun mem => (sound _ mem).root rfl

/-- Sound parts in order are sound. -/
theorem sound_sequence {parts : List (Pattern Atom)} (sound : ∀ part ∈ parts, part.Sound) :
    (sequence parts).Sound := by
  have absent := options_not_mem_of_sound sound
  have below : ∀ part ∈ parts, part.Everywhere SoundNode := fun part mem => (sound part mem).nodes
  match parts with
  | [] => exact ⟨nofun, everywhere_seq.2 ⟨⟨nofun, absent⟩, below⟩⟩
  | [part] => exact sound part List.mem_cons_self
  | first :: second :: later =>
    have several : (first :: second :: later).length ≠ 1 := by simp
    exact ⟨nofun, everywhere_seq.2 ⟨⟨several, absent⟩, below⟩⟩

/-- A choice of sound branches is sound, if there is one. -/
theorem sound_choice {branches : List (Pattern Atom)} (some : branches ≠ [])
    (sound : ∀ branch ∈ branches, branch.Sound) : (choice branches).Sound := by
  have absent := options_not_mem_of_sound sound
  have below : ∀ branch ∈ branches, branch.Everywhere SoundNode :=
    fun branch mem => (sound branch mem).nodes
  match branches with
  | [] => exact absurd rfl some
  | [branch] => exact sound branch List.mem_cons_self
  | first :: second :: later =>
    have several : 2 ≤ (first :: second :: later).length := by simp
    exact ⟨nofun, everywhere_alt.2 ⟨⟨several, absent⟩, below⟩⟩

/-- Every leaf of a sound pattern is well formed, and none could be taken for the placeholder. -/
theorem Sound.leaves {pattern : Pattern Atom} (sound : pattern.Sound) :
    ∀ atom ∈ pattern.leaves, atom.wellFormed = true ∧ atom ≠ .command "options" :=
  sound.nodes.leaves

section Bind

variable {f : Atom → Pattern Atom} (kept : f .options = .leaf .options)
  (replaced : ∀ atom, atom.wellFormed = true → atom ≠ .command "options" → atom ≠ .options →
    (f atom).Sound)

include kept replaced

/-- Replacing leaves by sound patterns keeps every node of a pattern as it must be, and makes no
placeholder for options of anything else. -/
theorem soundNode_bind {pattern : Pattern Atom} (nodes : pattern.Everywhere SoundNode) :
    (pattern.bind f).Everywhere SoundNode ∧
      (pattern ≠ .leaf .options → pattern.bind f ≠ .leaf .options) := by
  -- a child that is replaced is not the placeholder, so that its parent stays as it must be
  have absent : ∀ patterns : List (Pattern Atom), .leaf .options ∉ patterns →
      (∀ child ∈ patterns, child ≠ .leaf .options → child.bind f ≠ .leaf .options) →
      .leaf .options ∉ patterns.map (bind f) := by
    intro patterns none each mem
    obtain ⟨child, among, same⟩ := List.mem_map.1 mem
    exact each child among (fun placeholder => none (placeholder ▸ among)) same
  induction pattern with
  | leaf atom =>
    by_cases placeholder : atom = .options
    · rw [placeholder, bind, kept]
      exact ⟨everywhere_leaf.2 ⟨rfl, by simp⟩, id⟩
    · obtain ⟨formed, named⟩ := everywhere_leaf.1 nodes
      have sound := replaced atom formed named placeholder
      exact ⟨sound.nodes, fun _ => sound.root⟩
  | opt body ih =>
    obtain ⟨other, below⟩ := everywhere_opt.1 nodes
    obtain ⟨inside, stays⟩ := ih below
    exact ⟨everywhere_opt.2 ⟨stays other, inside⟩, by simp [bind]⟩
  | rep body ih =>
    obtain ⟨inside, -⟩ := ih (everywhere_rep.1 nodes).2
    exact ⟨everywhere_rep.2 ⟨trivial, inside⟩, by simp [bind]⟩
  | seq parts ih =>
    obtain ⟨⟨count, none⟩, below⟩ := everywhere_seq.1 nodes
    rw [bind, bindAll_eq]
    refine ⟨everywhere_seq.2 ⟨⟨?_, ?_⟩, ?_⟩, by simp⟩
    · rw [List.length_map]
      exact count
    · exact absent parts none fun part mem => (ih part mem (below part mem)).2
    · exact List.forall_mem_map.2 fun part mem => (ih part mem (below part mem)).1
  | alt branches ih =>
    obtain ⟨⟨count, none⟩, below⟩ := everywhere_alt.1 nodes
    rw [bind, bindAll_eq]
    refine ⟨everywhere_alt.2 ⟨⟨?_, ?_⟩, ?_⟩, by simp⟩
    · rw [List.length_map]
      exact count
    · exact absent branches none fun branch mem => (ih branch mem (below branch mem)).2
    · exact List.forall_mem_map.2 fun branch mem => (ih branch mem (below branch mem)).1

/-- Replacing leaves but the placeholder for options by sound patterns keeps a pattern sound. -/
theorem Sound.bind {pattern : Pattern Atom} (sound : pattern.Sound) : (pattern.bind f).Sound where
  root := (soundNode_bind kept replaced sound.nodes).2 sound.root
  nodes := (soundNode_bind kept replaced sound.nodes).1

end Bind

end Synopsis.Pattern

import Mathlib.Data.List.Basic
import Mathlib.Data.List.Induction
import Mathlib.Data.List.Perm.Subperm

/-!
# Lists

How long joined lists are and what they begin with, when a list has no members, and in which order
a list without its duplicates keeps them.
-/
namespace Synopsis

variable {α β : Type}

/-- Joining lists none of which is empty gives at least as many members. -/
theorem length_le_length_flatMap {text : β → List α} (filled : ∀ item, text item ≠ [])
    (items : List β) : items.length ≤ (items.flatMap text).length := by
  induction items with
  | nil => exact Nat.zero_le _
  | cons first later ih =>
    have one : 0 < (text first).length := List.length_pos_iff.2 (filled first)
    rw [List.flatMap_cons, List.length_cons, List.length_append]
    omega

/-- A list is no longer than any lists joined that it is one of. -/
theorem length_le_length_flatMap_of_mem (text : β → List α) {items : List β} {item : β}
    (mem : item ∈ items) : (text item).length ≤ (items.flatMap text).length := by
  rw [List.flatMap_def]
  exact (List.sublist_flatten_of_mem (List.mem_map_of_mem mem)).length_le

/-- Items with a separator between them are the first one and the others, each after one. -/
theorem intercalate_cons_eq (separator first : List α) (later : List (List α)) :
    separator.intercalate (first :: later) = first ++ later.flatMap (separator ++ ·) := by
  induction later generalizing first with
  | nil => rw [List.intercalate_singleton, List.flatMap_nil, List.append_nil]
  | cons second more ih =>
    rw [List.intercalate_cons_cons, ih, List.flatMap_cons, List.append_assoc, List.append_assoc]

/-- A list has no members without its duplicates only if it has none. -/
theorem eraseDups_eq_nil [DecidableEq α] {list : List α} : list.eraseDups = [] ↔ list = [] := by
  simp only [List.eq_nil_iff_forall_not_mem, List.mem_eraseDups]

/-- A list without duplicates is longer than one exactly if it has two different members. -/
theorem one_lt_length_iff_of_nodup {list : List α} (once : list.Nodup) :
    1 < list.length ↔ ∃ one other, one ≠ other ∧ one ∈ list ∧ other ∈ list := by
  constructor
  · intro longer
    match list, once, longer with
    | first :: second :: later, once, _ =>
      obtain ⟨absent, -⟩ := List.nodup_cons.1 once
      have different : first ≠ second := (List.ne_and_not_mem_of_not_mem_cons absent).1
      exact ⟨first, second, different, List.mem_cons_self, by simp⟩
  · rintro ⟨one, other, different, oneMem, otherMem⟩
    have pair : [one, other].Nodup := by simpa using different
    have within : [one, other] ⊆ list := by simp [oneMem, otherMem]
    exact (List.Nodup.subperm pair within).length_le

/-- One more member is kept without duplicates unless it was there before. -/
theorem eraseDups_concat [DecidableEq α] (list : List α) (last : α) :
    (list ++ [last]).eraseDups =
      if last ∈ list then list.eraseDups else list.eraseDups ++ [last] := by
  rw [List.eraseDups_append]
  by_cases there : last ∈ list <;> simp [List.removeAll, there, List.eraseDups_cons]

/-- Images of different members are different, so their duplicates are those of the members. -/
theorem eraseDups_map [DecidableEq α] [DecidableEq β] {f : α → β} (injective : f.Injective)
    (list : List α) : (list.map f).eraseDups = list.eraseDups.map f := by
  induction list using List.reverseRecOn with
  | nil => rfl
  | append_singleton list last ih =>
    rw [List.map_append, List.map_singleton, eraseDups_concat, eraseDups_concat, ih]
    simp only [List.mem_map_of_injective injective]
    split
    · rfl
    · rw [List.map_append, List.map_singleton]

/-- A member that is found in a list is found at the same place with one more member after it. -/
theorem findIdx_concat {holds : α → Bool} {list : List α}
    (found : ∃ item ∈ list, holds item = true) (last : α) :
    (list ++ [last]).findIdx holds = list.findIdx holds ∧ list.findIdx holds < list.length := by
  have inside := List.findIdx_lt_length_of_exists found
  exact ⟨by rw [List.findIdx_append, if_pos inside], inside⟩

/-- A member that is not found in a list can only be found after it. -/
theorem length_le_findIdx_concat {holds : α → Bool} {list : List α}
    (absent : ∀ item ∈ list, holds item = false) (last : α) :
    list.length ≤ (list ++ [last]).findIdx holds := by
  have outside : list.findIdx holds = list.length := List.findIdx_eq_length_of_false absent
  rw [List.findIdx_append, if_neg (outside ▸ Nat.lt_irrefl _)]
  exact Nat.le_add_left _ _

/-- The results of items come without duplicates in the order of the first items that they are
about. -/
theorem pairwise_eraseDups_filterMap [DecidableEq β] {result : α → Option β}
    {about : β → α → Bool} {items : List α}
    (same : ∀ item ∈ items, ∀ found ∈ items.filterMap result,
      about found item = true ↔ result item = some found) :
    (items.filterMap result).eraseDups.Pairwise fun first second =>
      items.findIdx (about first) < items.findIdx (about second) := by
  induction items using List.reverseRecOn with
  | nil => exact .nil
  | append_singleton items last ih =>
    rw [List.filterMap_append] at same ⊢
    have earlier : ∀ item ∈ items, ∀ found ∈ items.filterMap result,
        about found item = true ↔ result item = some found := fun item mem found among =>
      same item (List.mem_append_left _ mem) found (List.mem_append_left _ among)
    -- a result of the earlier items is about one of them, so the last item does not move its place
    have place : ∀ found ∈ (items.filterMap result).eraseDups,
        (items ++ [last]).findIdx (about found) = items.findIdx (about found) ∧
          items.findIdx (about found) < items.length := by
      intro found mem
      have among := List.mem_eraseDups.1 mem
      obtain ⟨item, there, gives⟩ := List.mem_filterMap.1 among
      exact findIdx_concat ⟨item, there, (earlier item there found among).2 gives⟩ last
    have kept : (items.filterMap result).eraseDups.Pairwise fun first second =>
        (items ++ [last]).findIdx (about first) < (items ++ [last]).findIdx (about second) := by
      refine (ih earlier).imp_of_mem fun {first second} one other before => ?_
      rwa [(place first one).1, (place second other).1]
    cases gives : result last with
    | none => simpa [gives] using kept
    | some found =>
      have single : [last].filterMap result = [found] := by simp [gives]
      rw [single] at same ⊢
      rw [eraseDups_concat]
      split
      · exact kept
      · next new =>
        have absent : ∀ item ∈ items, about found item = false := by
          intro item mem
          refine Bool.eq_false_iff.2 fun isAbout => new (List.mem_filterMap.2 ⟨item, mem, ?_⟩)
          exact (same item (List.mem_append_left _ mem) found (by simp)).1 isAbout
        refine List.pairwise_append.2 ⟨kept, List.pairwise_singleton _ _, ?_⟩
        intro first one second other
        obtain rfl := List.mem_singleton.1 other
        obtain ⟨stays, inside⟩ := place first one
        rw [stays]
        exact Nat.lt_of_lt_of_le inside (length_le_findIdx_concat absent last)

end Synopsis

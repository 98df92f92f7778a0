import Synopsis.Proofs.Text.Feed

/-!
# Layout

A run of blanks sets words apart whatever it consists of; only a single space may also join a word
to the one before it. So texts that differ in other runs of blanks settle to one text, in which each
of these is a tab. Settling keeps all words, and skipping blanks is the same before and after it.
-/
namespace Synopsis.Text

/-- Two texts differ at most in runs of blanks, and in none that is a single space in one of
them. -/
inductive Respaced : List Char → List Char → Prop where
  /-- Nothing is left of either text. -/
  | nil : Respaced [] []
  /-- The texts go on with the same character, which is no blank. -/
  | cons {c : Char} {text other : List Char} (filled : isBlank c = false)
      (more : Respaced text other) : Respaced (c :: text) (c :: other)
  /-- Each text goes on with a whole run of blanks. -/
  | run {blanks others text other : List Char} (some : blanks ≠ []) (also : others ≠ [])
      (blank : ∀ c ∈ blanks, isBlank c = true) (blank' : ∀ c ∈ others, isBlank c = true)
      (ends : Ends isBlank text) (ends' : Ends isBlank other)
      (wide : blanks = others ∨ blanks ≠ [' '] ∧ others ≠ [' ']) (more : Respaced text other) :
      Respaced (blanks ++ text) (others ++ other)

/-- The text with a tab for each run of several blanks. -/
def settle : List Char → List Char
  | [] => []
  | c :: rest =>
    if isBlank c && rest.head?.any isBlank then '\t' :: (settle rest).tail else c :: settle rest

/-- A blank before another one is taken up by the tab for their run. -/
theorem settle_blanks {c d : Char} (blank : isBlank c = true) (next : isBlank d = true)
    (rest : List Char) : settle (c :: d :: rest) = '\t' :: (settle (d :: rest)).tail := by
  rw [settle, List.head?_cons, Option.any_some, blank, next, Bool.and_self, if_pos rfl]

/-- A character is kept unless it is a blank before another one. -/
theorem settle_cons {c : Char} {rest : List Char} (alone : isBlank c = false ∨ Ends isBlank rest) :
    settle (c :: rest) = c :: settle rest := by
  have single : (isBlank c && rest.head?.any isBlank) = false := by
    rcases alone with filled | ends
    · rw [filled, Bool.false_and]
    · cases rest with
      | nil => rw [List.head?_nil, Option.any_none, Bool.and_false]
      | cons d more => rw [List.head?_cons, Option.any_some, ends_cons.1 ends, Bool.and_false]
  rw [settle, single, if_neg Bool.false_ne_true]

/-- A text begins with two blanks, or its first character is kept. -/
theorem settle_cases (c : Char) (rest : List Char) :
    (∃ d more, rest = d :: more ∧ isBlank c = true ∧ isBlank d = true) ∨
      settle (c :: rest) = c :: settle rest := by
  by_cases first : isBlank c = true
  · cases rest with
    | nil => exact .inr (settle_cons (.inr (ends_nil isBlank)))
    | cons d more =>
      by_cases second : isBlank d = true
      · exact .inl ⟨d, more, rfl, first, second⟩
      · exact .inr (settle_cons (.inr (ends_cons.2 (Bool.eq_false_iff.2 second))))
  · exact .inr (settle_cons (.inl (Bool.eq_false_iff.2 first)))

/-- A text that begins with a blank settles to one that does. -/
theorem exists_settle_blank {c : Char} (blank : isBlank c = true) (rest : List Char) :
    ∃ d more, settle (c :: rest) = d :: more ∧ isBlank d = true := by
  rcases settle_cases c rest with ⟨d, more, rfl, -, next⟩ | kept
  · exact ⟨'\t', _, settle_blanks blank next more, rfl⟩
  · exact ⟨c, _, kept, blank⟩

/-- A run of blanks settles to a single blank: itself, if it is a space, and else a tab. -/
theorem settle_run {blanks text : List Char} (some : blanks ≠ [])
    (blank : ∀ c ∈ blanks, isBlank c = true) (ends : Ends isBlank text) :
    settle (blanks ++ text) = (if blanks = [' '] then ' ' else '\t') :: settle text := by
  induction blanks with
  | nil => contradiction
  | cons c later ih =>
    obtain ⟨first, others⟩ := List.forall_mem_cons.1 blank
    cases later with
    | nil =>
      have either : c = ' ' ∨ c = '\t' := by simpa [isBlank] using first
      rw [List.singleton_append, settle_cons (.inr ends)]
      rcases either with rfl | rfl <;> rfl
    | cons d more =>
      have run := ih (List.cons_ne_nil d more) others
      rw [List.cons_append] at run
      rw [List.cons_append, List.cons_append, settle_blanks first (List.forall_mem_cons.1 others).1,
        run, List.tail_cons, if_neg (by simp)]

/-- Texts that differ only in their layout settle to the same text. -/
theorem Respaced.settle {text other : List Char} (respaced : Respaced text other) :
    settle text = settle other := by
  induction respaced with
  | nil => rfl
  | cons filled more ih => rw [settle_cons (.inl filled), settle_cons (.inl filled), ih]
  | run some also blank blank' ends ends' wide more ih =>
    rw [settle_run some blank ends, settle_run also blank' ends', ih]
    rcases wide with rfl | ⟨own, others⟩
    · rfl
    · rw [if_neg own, if_neg others]

/-- A settled text begins with a blank exactly where the text does. -/
theorem any_head?_settle (text : List Char) :
    (settle text).head?.any isBlank = text.head?.any isBlank := by
  cases text with
  | nil => rfl
  | cons c rest =>
    rcases settle_cases c rest with ⟨d, more, rfl, blank, next⟩ | kept
    · rw [settle_blanks blank next, List.head?_cons, List.head?_cons, Option.any_some,
        Option.any_some, blank]
      rfl
    · rw [kept, List.head?_cons, List.head?_cons]

/-- A text that begins with a blank begins with a whole run of them. -/
theorem exists_run {text : List Char} (blank : text.head?.any isBlank = true) :
    ∃ blanks rest, text = blanks ++ rest ∧ blanks ≠ [] ∧ (∀ c ∈ blanks, isBlank c = true) ∧
      Ends isBlank rest ∧ rest.length < text.length := by
  cases text with
  | nil => contradiction
  | cons c more =>
    rw [List.head?_cons, Option.any_some] at blank
    refine ⟨c :: more.takeWhile isBlank, more.dropWhile isBlank, ?_, List.cons_ne_nil _ _, ?_,
      ends_dropWhile isBlank more, ?_⟩
    · rw [List.cons_append, List.takeWhile_append_dropWhile]
    · exact List.forall_mem_cons.2 ⟨blank, List.all_eq_true.1 List.all_takeWhile⟩
    · exact Nat.lt_succ_of_le (List.dropWhile_suffix isBlank).length_le

/-- Texts that settle to the same text differ only in their layout. -/
theorem respaced_of_settle {text other : List Char} (same : settle text = settle other) :
    Respaced text other := by
  -- induction on the length, because a whole run of blanks is taken at once
  induction bound : text.length using Nat.strongRecOn generalizing text other with
  | _ length ih =>
    have first : text.head?.any isBlank = other.head?.any isBlank := by
      rw [← any_head?_settle, ← any_head?_settle other, same]
    by_cases blank : text.head?.any isBlank = true
    · obtain ⟨blanks, rest, rfl, some, all, ends, shorter⟩ := exists_run blank
      obtain ⟨others, more, rfl, also, all', ends', -⟩ := exists_run (first.symm.trans blank)
      rw [settle_run some all ends, settle_run also all' ends'] at same
      obtain ⟨head, tail⟩ := List.cons.inj same
      have wide : blanks = others ∨ blanks ≠ [' '] ∧ others ≠ [' '] := by
        by_cases single : blanks = [' ']
        · by_cases single' : others = [' ']
          · exact .inl (single.trans single'.symm)
          · rw [if_pos single, if_neg single'] at head
            contradiction
        · by_cases single' : others = [' ']
          · rw [if_neg single, if_pos single'] at head
            contradiction
          · exact .inr ⟨single, single'⟩
      exact .run some also all all' ends ends' wide (ih _ (bound ▸ shorter) tail rfl)
    · have filled : ∀ {c rest}, (c :: rest).head?.any isBlank = false → isBlank c = false := by
        simp
      rw [Bool.not_eq_true] at blank
      cases text with
      | nil =>
        cases other with
        | nil => exact .nil
        | cons d more =>
          rw [settle_cons (.inl (filled (first.symm.trans blank)))] at same
          contradiction
      | cons c rest =>
        rw [settle_cons (.inl (filled blank))] at same
        cases other with
        | nil => contradiction
        | cons d more =>
          rw [settle_cons (.inl (filled (first.symm.trans blank)))] at same
          obtain ⟨rfl, tail⟩ := List.cons.inj same
          exact .cons (filled blank) (ih _ (bound ▸ Nat.lt_succ_self _) tail rfl)

instance (text other : List Char) : Decidable (Respaced text other) :=
  decidable_of_iff (settle text = settle other) ⟨respaced_of_settle, Respaced.settle⟩

/-- Settling a text keeps its words. -/
theorem keeps_settle : Keeps Pauses settle := by
  intro text
  cases text with
  | nil => exact .inl ⟨.nil, .nil⟩
  | cons c rest =>
    rcases settle_cases c rest with ⟨d, more, rfl, blank, next⟩ | kept
    · refine .inl ⟨?_, settle_blanks blank next more ▸ .tab _⟩
      have either : ∀ {c}, isBlank c = true → c = ' ' ∨ c = '\t' := by simp [isBlank]
      rcases either blank with rfl | rfl
      · rcases either next with rfl | rfl
        · exact .space more
        · exact .spaceTab more
      · exact .tab _
    · exact .inr ⟨c, rest, rfl, kept⟩

/-- Blanks are skipped alike in a settled text. -/
theorem skipBlanks_settle (text : List Char) :
    skipBlanks (settle text) = settle (skipBlanks text) := by
  induction text with
  | nil => rfl
  | cons c rest ih =>
    rcases settle_cases c rest with ⟨d, more, rfl, blank, next⟩ | kept
    · obtain ⟨e, later, same, blank'⟩ := exists_settle_blank next more
      rw [same, skipBlanks_cons blank'] at ih
      rw [settle_blanks blank next, same, List.tail_cons, skipBlanks_cons (by decide),
        skipBlanks_cons blank, ih]
    · by_cases blank : isBlank c = true
      · rw [kept, skipBlanks_cons blank, skipBlanks_cons blank, ih]
      · have ends : ∀ later, skipBlanks (c :: later) = c :: later := fun later =>
          (ends_cons.2 (Bool.eq_false_iff.2 blank)).dropWhile
        rw [kept, ends, ends, kept]

/-- Blanks are read where there is one at the front. -/
theorem blanks?_eq (text : List Char) :
    blanks? text = if text.head?.any isBlank then some (skipBlanks text) else none := by
  cases text with
  | nil => rfl
  | cons c rest =>
    rw [blanks?, List.head?_cons, Option.any_some]
    split
    · next blank => rw [skipBlanks_cons blank]
    · rfl

/-- Blanks are read alike in a settled text. -/
theorem blanks?_settle (text : List Char) : blanks? (settle text) = (blanks? text).map settle := by
  rw [blanks?_eq, blanks?_eq, any_head?_settle, skipBlanks_settle]
  split <;> rfl

/-- The first character is kept where it is no blank. -/
theorem head?_settle {text : List Char} (ends : Ends isBlank text) :
    (settle text).head? = text.head? := by
  cases text with
  | nil => rfl
  | cons c rest => rw [settle_cons (.inl (ends_cons.1 ends)), List.head?_cons, List.head?_cons]

/-- What is left of a text does not become longer than the text when both are settled. -/
theorem settle_length_le {text rest : List Char} (suffix : rest <:+ text) :
    (settle rest).length ≤ (settle text).length := by
  obtain ⟨front, rfl⟩ := suffix
  induction front with
  | nil => exact Nat.le_refl _
  | cons c front ih =>
    refine Nat.le_trans ih ?_
    rw [List.cons_append]
    rcases settle_cases c (front ++ rest) with ⟨d, more, same, blank, next⟩ | kept
    · obtain ⟨e, later, settled, -⟩ := exists_settle_blank next more
      rw [same, settle_blanks blank next, settled]
      exact Nat.le_refl _
    · rw [kept, List.length_cons]
      exact Nat.le_succ _

end Synopsis.Text

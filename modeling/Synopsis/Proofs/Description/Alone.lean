import Synopsis.Proofs.Description.Written
import Synopsis.Proofs.Usage.Alone

/-!
# A record of an option alone

What a usage line reads as a single option, a record reads as a single spelling: the same option,
with a placeholder or without, up to the same place. Where only blanks follow, nothing more is read
of the record.
-/
namespace Synopsis.Description

open Text
open Usage (Fragment Mention simple?)

/-- An option that a usage line reads as a simple expression is read as a spelling of it. -/
theorem spelling?_of_simple? {text rest : List Char} {fragment : Fragment} {atom : Atom}
    (read : simple? text = some (fragment, rest)) (leaf : fragment.pattern = .leaf atom)
    (hyphen : text.head? = some '-') :
    ∃ valued, spelling? text = some (⟨atom, valued⟩, rest) ∧
      fragment.mentions = [⟨atom, valued⟩] := by
  obtain ⟨more, rfl⟩ := List.head?_eq_some_iff.1 hyphen
  rw [Usage.simple?_hyphen] at read
  rw [spelling?]
  split at read
  · next mentions left stack =>
    obtain ⟨rfl, rfl⟩ := Prod.mk.inj (Option.some.inj read)
    obtain ⟨valued, rfl⟩ := Fragment.ofMentions_eq_leaf leaf
    rw [Usage.longOption?_of_stack? stack]
    exact ⟨valued, Usage.shortOption?_of_stack? stack, rfl⟩
  · next none =>
    obtain ⟨⟨mention, left⟩, long, same⟩ := Option.map_eq_some_iff.1 read
    obtain ⟨rfl, rfl⟩ := Prod.mk.inj same
    obtain ⟨valued, single⟩ := Fragment.ofMentions_eq_leaf leaf
    obtain rfl := (List.cons.inj single).1
    rw [long]
    exact ⟨valued, rfl, rfl⟩

/-- No spelling follows where only blanks are left. -/
theorem moreSpellings_blank {text : List Char} (blank : skipBlanks text = []) (bound : Nat) :
    moreSpellings bound text = ([], text) := by
  have separated : ∀ next, separator? text = some next → next = [] := by
    intro next separator
    cases text with
    | nil => contradiction
    | cons c rest =>
      have first : isBlank c = true := isBlank_of_skipBlanks blank c List.mem_cons_self
      rw [separator?_cons (.inr first), ← skipBlanks_cons first, blank] at separator
      exact (Option.some.inj separator).symm
  cases bound with
  | zero => rfl
  | succ bound =>
    rw [moreSpellings]
    cases separator : separator? text with
    | none => rfl
    | some next =>
      obtain rfl := separated next separator
      rfl

/-- A line that begins with a spelling and goes on with blanks only has no other spelling. -/
theorem spellings_alone {line left : List Char} {mention : Mention}
    (hyphen : line.head? = some '-') (read : spelling? line = some (mention, left))
    (blank : skipBlanks left = []) : spellings line = .ok ([mention], left) := by
  obtain ⟨more, rfl⟩ := List.head?_eq_some_iff.1 hyphen
  have start : skipBlanks ('-' :: more) = '-' :: more := rfl
  rw [spellings, start]
  dsimp only
  rw [read]
  dsimp only
  rw [moreSpellings_blank blank]

/-- A tag begins with a bracket, so there is none in the blanks at the end of a line. -/
theorem fallback_blank {blanks : List Char} (blank : skipBlanks blanks = []) :
    fallback (blanks ++ ['\n']) = .ok none := by
  have plain : ∀ c ∈ blanks ++ ['\n'], c.toLower ≠ '[' := by
    intro c mem
    rcases List.mem_append.1 mem with inside | last
    · have own : isBlank c = true := isBlank_of_skipBlanks blank c inside
      simp only [isBlank, Bool.or_eq_true, decide_eq_true_eq] at own
      rcases own with rfl | rfl <;> decide
    · obtain rfl := List.mem_singleton.1 last
      decide
  have absent : ∀ front other back, blanks ++ ['\n'] = front ++ (other ++ back) → ¬ IsTag other := by
    intro front other back same isTag
    cases other with
    | nil => contradiction
    | cons c more =>
      have mem : c ∈ blanks ++ ['\n'] := by
        rw [same]
        simp
      exact plain c mem (List.cons.inj isTag).1
  rw [fallback, findTag_eq_none absent]

/-- A line that begins with a hyphen opens a record. -/
theorem isDashLine_of_hyphen {line : List Char} (hyphen : line.head? = some '-') :
    isDashLine (line ++ ['\n']) = true := by
  obtain ⟨more, rfl⟩ := List.head?_eq_some_iff.1 hyphen
  rfl

/-- A line that begins with a spelling and goes on with blanks only is a record of that spelling. -/
theorem ofLines_alone {line left : List Char} {mention : Mention} (single : '\n' ∉ line)
    (hyphen : line.head? = some '-') (read : spelling? line = some (mention, left))
    (blank : skipBlanks left = []) :
    ofLines (lines (line ++ ['\n'])) = .ok [entry [mention] none] := by
  have opens : isDashLine (line ++ ['\n']) = true := isDashLine_of_hyphen hyphen
  have whole : split [line ++ ['\n']] = ([], [line ++ ['\n']]) := by
    rw [split_of_opens opens (List.forall_mem_nil _), List.flatten_singleton]
  have spelled : spellings (line ++ ['\n']) = .ok ([mention], left ++ ['\n']) := by
    rw [spellings_keeps (keepsLines_append (.feed [])) line, spellings_alone hyphen read blank]
    rfl
  have one : lines (line ++ ['\n']) = [line ++ ['\n']] := lines_append single []
  rw [ofLines, one, whole, ofRecords, List.flatten_nil, ofRecord_nil, spelled]
  dsimp only
  rw [fallback_blank blank]
  rfl

end Synopsis.Description

import Synopsis.Proofs.List
import Synopsis.Proofs.Manual.Reading
import Synopsis.Proofs.Position
import Synopsis.Proofs.Usage.Below

/-!
# Manuals of several usage lines

Each usage line of a manual has a pattern of its own, which is that of a manual with this line only.
The pattern of several lines is the choice of theirs, and the first of them that is refused on its
own is where all of them are, as many lines further down.
-/
namespace Synopsis.Manual

open Text
open Usage (Plain EndsLines EndOfLine Fragment below usageLine)

/-- The usage block of lines below a header. -/
theorem ofText_below {list : List (List Char)} (filled : list ≠ []) (tail : List Char) :
    Usage.Block.ofText ("Usage:".toList ++ below list tail) =
      match Usage.Block.ofLines false (lines (below list tail).tail) with
      | .error fault => .error fault
      | .ok block =>
        if block.usages.isEmpty then .error (.expected "usage line" block.remaining.flatten)
        else .ok block := by
  obtain ⟨line, later, rfl⟩ := List.exists_cons_of_ne_nil filled
  rw [Usage.below_cons]
  rfl

/-- The usage block of a single usage line below the header has its usage. -/
theorem ofText_line {line : List Char} (plain : Plain line) :
    Usage.Block.ofText ("Usage:\n".toList ++ line) = match usageLine line with
      | .error fault => .error fault
      | .ok (usage, _) => .ok ⟨[usage], []⟩ := by
  have header := ofText_below (List.cons_ne_nil line []) []
  rw [Usage.Block.ofLines_below_cons plain [] (.inl rfl)] at header
  have shape : "Usage:".toList ++ Usage.below [line] [] = "Usage:\n".toList ++ line := by
    simp [Usage.below]
  rw [← shape, header]
  cases read : usageLine line with
  | ok found => rfl
  | error fault =>
    obtain ⟨what, same, changed⟩ := (Usage.usageLine_stands read).changed_eq
    dsimp only
    rw [changed, Usage.below, List.flatMap_nil, List.nil_append, List.append_nil, ← same]

/-- The usage block is the same with its first line behind the header. -/
theorem ofText_header_cons_blank {line rest : List Char} (plain : Plain line)
    (follows : EndOfLine rest) :
    Usage.Block.ofText ("Usage:".toList ++ ' ' :: (line ++ rest)) =
      Usage.Block.ofText ("Usage:".toList ++ '\n' :: (line ++ rest)) := by
  have behind := Usage.Block.afterHeader_cons_blank (c := ' ') rfl plain follows
  have header : ∀ text, Usage.Block.ofText ("Usage:".toList ++ text) =
      match Usage.Block.afterHeader text with
      | .error fault => .error fault
      | .ok block =>
        if block.usages.isEmpty then .error (.expected "usage line" block.remaining.flatten)
        else .ok block := fun text => rfl
  rw [header, header, behind]

/-- Lines below others follow complete lines. -/
theorem below_append (front : List (List Char)) (line : List Char) (later : List (List Char))
    (tail : List Char) :
    below (front ++ line :: later) tail = below front ['\n'] ++ (line ++ below later tail) := by
  simp [below]

/-- Complete lines below a header are closed, and hold a line feed each besides the header's. -/
theorem below_closed {list : List (List Char)} (plain : ∀ line ∈ list, Plain line) :
    Closed ("Usage:".toList ++ below list ['\n']) ∧
      ("Usage:".toList ++ below list ['\n']).count '\n' = list.length + 1 := by
  constructor
  · rw [below, ← List.append_assoc]
    exact List.getLast?_concat ..
  · have header : "Usage:".toList.count '\n' = 0 := by decide
    rw [List.count_append, header, Nat.zero_add, below, List.count_append]
    refine congrArg (· + 1) ?_
    induction list with
    | nil => rfl
    | cons line later ih =>
      obtain ⟨first, others⟩ := List.forall_mem_cons.1 plain
      rw [List.flatMap_cons, List.count_append, ih others, List.count_cons_self,
        List.count_eq_zero.2 first.feed, List.length_cons]
      omega

section Below

variable {text : String} {tail : List Char}

/-- Usage lines that are accepted one by one have the choice of their patterns. -/
theorem readPattern_below {list : List (List Char)} {usages : List Fragment}
    (shape : text.toList = "Usage:".toList ++ below list tail) (filled : list ≠ [])
    (plain : ∀ line ∈ list, Plain line) (ends : EndsLines tail)
    (each : List.Forall₂ (fun line usage => usageLine line = .ok (usage, [])) list usages) :
    readPattern text = .ok (.choice (usages.map Fragment.pattern)) := by
  have some : usages.isEmpty = false := by
    cases each with
    | nil => contradiction
    | cons one more => rfl
  rw [readPattern, shape, ofText_below filled, Usage.Block.ofLines_below plain ends each]
  dsimp only
  rw [some]
  rfl

/-- The first usage line that is refused is where the text is refused. -/
theorem readPattern_below_refused {front later : List (List Char)} {line : List Char}
    {fault : Fault}
    (shape : text.toList = "Usage:".toList ++ below (front ++ line :: later) tail)
    (plain : ∀ line ∈ front, Plain line) (own : Plain line) (follows : EndOfLine tail)
    (accepted : ∀ line ∈ front, ∃ found, usageLine line = .ok found)
    (refused : usageLine line = .error fault) :
    readPattern text = .error ⟨(Position.before line fault.rest).lower (front.length + 1),
      (fault.changed (· ++ below later tail)).cause⟩ := by
  -- the lines before the refused one are complete, so they only lower its place
  have ⟨closed, count⟩ := below_closed plain
  have stands := Usage.usageLine_stands refused
  obtain ⟨what, -, changed⟩ := stands.changed_eq
  obtain ⟨read, same⟩ := stands.left
  have suffix : fault.rest ++ below later tail <:+ line ++ below later tail :=
    ⟨read, by rw [← List.append_assoc, same]⟩
  rw [readPattern, shape, ofText_below (by simp),
    Usage.Block.ofLines_below_refused plain own follows accepted refused, below_append]
  dsimp only [located, Fault.diagnostic]
  rw [← List.append_assoc, changed, Fault.expected, Position.before_append_closed closed suffix,
    Position.before_append_right stands.left, count]

end Below

/-- A single usage line is read with its own pattern, or refused where it is below the header. -/
theorem readPattern_line {line : String} (plain : Plain line.toList) :
    readPattern ("Usage:\n" ++ line) = match usageLine line.toList with
      | .ok (usage, _) => .ok usage.pattern
      | .error fault => .error ⟨(Position.before line.toList fault.rest).lower 1, fault.cause⟩ := by
  rw [readPattern, String.toList_append, ofText_line plain]
  cases read : usageLine line.toList with
  | ok found => rfl
  | error fault =>
    have header : Closed "Usage:\n".toList := rfl
    have place := Position.before_append_closed header (Usage.usageLine_stands read).left
    dsimp only [located, Fault.diagnostic]
    rw [place]
    rfl

/-- The pattern of a single usage line is that of its usage. -/
theorem readPattern_line_eq_ok {line : String} {pattern : Pattern Atom}
    (plain : Plain line.toList) (read : readPattern ("Usage:\n" ++ line) = .ok pattern) :
    ∃ usage, usageLine line.toList = .ok (usage, []) ∧ usage.pattern = pattern := by
  rw [readPattern_line plain] at read
  cases own : usageLine line.toList with
  | error fault =>
    rw [own] at read
    contradiction
  | ok found =>
    obtain ⟨usage, rest⟩ := found
    obtain rfl := Usage.rest_of_usageLine plain.feed plain.carriage own
    rw [own] at read
    exact ⟨usage, rfl, Except.ok.inj read⟩

/-- A single usage line is refused in the line. -/
theorem readPattern_line_eq_error {line : String} {diagnostic : Diagnostic}
    (plain : Plain line.toList) (read : readPattern ("Usage:\n" ++ line) = .error diagnostic) :
    ∃ fault, usageLine line.toList = .error fault ∧
      ⟨(Position.before line.toList fault.rest).lower 1, fault.cause⟩ = diagnostic := by
  rw [readPattern_line plain] at read
  cases own : usageLine line.toList with
  | error fault =>
    rw [own] at read
    exact ⟨fault, rfl, Except.error.inj read⟩
  | ok found =>
    rw [own] at read
    contradiction

/-- Lines that have patterns of their own are accepted with these. -/
theorem exists_usages {list : List String} {patterns : List (Pattern Atom)}
    (plain : ∀ line ∈ list, Plain line.toList)
    (each : List.Forall₂ (fun line pattern => readPattern ("Usage:\n" ++ line) = .ok pattern)
      list patterns) :
    ∃ usages : List Fragment, usages.map Fragment.pattern = patterns ∧
      List.Forall₂ (fun line usage => usageLine line = .ok (usage, []))
        (list.map String.toList) usages := by
  induction each with
  | nil => exact ⟨[], rfl, .nil⟩
  | @cons line pattern later patterns one more ih =>
    obtain ⟨first, others⟩ := List.forall_mem_cons.1 plain
    obtain ⟨usages, rfl, accepted⟩ := ih others
    obtain ⟨usage, read, rfl⟩ := readPattern_line_eq_ok first one
    exact ⟨usage :: usages, rfl, .cons read accepted⟩

/-- Joined lines behind a line feed stand below each other. -/
theorem toList_joined (first : String) (later : List String) (tail : String) :
    "\n".toList ++ ("\n".intercalate (first :: later) ++ tail).toList =
      below ((first :: later).map String.toList) tail.toList := by
  have feed : "\n".toList = ['\n'] := rfl
  rw [String.toList_append, String.toList_intercalate, feed, List.map_cons, intercalate_cons_eq,
    Usage.below_cons, below]
  simp

/-- A place in a single usage line is the end of the text if nothing is left there. -/
theorem before_line_eq_iff {line : String} {rest : List Char} (single : '\n' ∉ line.toList)
    (suffix : rest <:+ line.toList) :
    (Position.before line.toList rest).lower 1 = .after ("Usage:\n" ++ line).toList ↔
      rest = [] := by
  obtain ⟨front, same⟩ := suffix
  have closed : Closed "Usage:\n".toList := rfl
  have whole : Position.after ("Usage:\n" ++ line).toList = (Position.after line.toList).lower 1 := by
    rw [String.toList_append, Position.after_append_closed closed]
    rfl
  rw [← same] at single whole
  have none : '\n' ∉ front := fun mem => single (List.mem_append_left _ mem)
  rw [whole, ← same, Position.before_append, Position.after_inline none,
    Position.after_inline single]
  simp [Position.lower]

/-- What stands below a line begins with a line feed, if there is anything. -/
theorem head?_below (list : List (List Char)) {tail : List Char} (follows : EndOfLine tail) :
    (below list tail).head? = if list = [] ∧ tail = [] then none else some '\n' := by
  cases list with
  | cons line later => rw [Usage.below_cons, if_neg (by simp), List.head?_cons]
  | nil => rcases follows with rfl | ⟨after, rfl⟩ <;> rfl

/-- The first of joined lines that is refused on its own is refused among them. -/
theorem readPattern_joined_refused {text line : String} {before after : List String}
    {tail : List Char} {position : Position} {cause : Cause}
    (shape : text.toList = "Usage:".toList ++
      below (before.map String.toList ++ line.toList :: after.map String.toList) tail)
    (plain : ∀ earlier ∈ before, Plain earlier.toList) (own : Plain line.toList)
    (follows : EndOfLine tail)
    (accepted : ∀ earlier ∈ before, ∃ pattern, readPattern ("Usage:\n" ++ earlier) = .ok pattern)
    (refused : readPattern ("Usage:\n" ++ line) = .error ⟨position, cause⟩) :
    ∃ expected found, cause = .unexpected expected found ∧
      (found = none ↔ position = .after ("Usage:\n" ++ line).toList) ∧
      readPattern text = .error ⟨position.lower before.length, .unexpected expected
        (found.or (if after = [] ∧ tail = [] then none else some '\n'))⟩ := by
  have each : ∀ other ∈ before.map String.toList, Plain other := List.forall_mem_map.2 plain
  have read : ∀ other ∈ before.map String.toList, ∃ found, usageLine other = .ok found := by
    refine List.forall_mem_map.2 fun other mem => ?_
    obtain ⟨pattern, alone⟩ := accepted other mem
    obtain ⟨usage, one, -⟩ := readPattern_line_eq_ok (plain other mem) alone
    exact ⟨_, one⟩
  obtain ⟨fault, last, same⟩ := readPattern_line_eq_error own refused
  obtain ⟨rfl, rfl⟩ := Diagnostic.mk.inj same
  have stands := Usage.usageLine_stands last
  obtain ⟨what, found, changed⟩ := stands.changed_eq
  have begins := head?_below (after.map String.toList) follows
  simp only [List.map_eq_nil_iff] at begins
  refine ⟨what, fault.rest.head?, congrArg Fault.cause found, ?_, ?_⟩
  · rw [List.head?_eq_none_iff, before_line_eq_iff own.feed stands.left]
  · rw [readPattern_below_refused shape each own follows read last, changed,
      Position.lower_lower, List.length_map, Nat.add_comm 1, Fault.expected, List.head?_append,
      begins]

/-- Usage lines are read one by one. Lines below a header, none of which has a line break in it or
ends the block, are read as the choice of the patterns that each of them has on its own, whatever
comes after a line that ends the block. If they are not all accepted, the first one that is refused
on its own is refused among the others for the same reason, as many lines further down as there are
lines before it; only that a line feed is found where it ended on its own and something follows. The
first line may as well stand behind the header. -/
theorem readPattern_lines {first : String} {later : List String} {tail : String}
    (plain : ∀ line ∈ first :: later, Plain line.toList) (ends : EndsLines tail.toList) :
    (∀ patterns,
      List.Forall₂ (fun line pattern => readPattern ("Usage:\n" ++ line) = .ok pattern)
        (first :: later) patterns →
      readPattern ("Usage:\n" ++ ("\n".intercalate (first :: later) ++ tail)) =
        .ok (.choice patterns)) ∧
    (∀ before line after position cause, first :: later = before ++ line :: after →
      (∀ earlier ∈ before, ∃ pattern, readPattern ("Usage:\n" ++ earlier) = .ok pattern) →
      readPattern ("Usage:\n" ++ line) = .error ⟨position, cause⟩ →
      ∃ expected found, cause = .unexpected expected found ∧
        (found = none ↔ position = .after ("Usage:\n" ++ line).toList) ∧
        readPattern ("Usage:\n" ++ ("\n".intercalate (first :: later) ++ tail)) =
          .error ⟨position.lower before.length, .unexpected expected
            (found.or (if after = [] ∧ tail.toList = [] then none else some '\n'))⟩) ∧
    ∀ pattern,
      readPattern ("Usage: " ++ ("\n".intercalate (first :: later) ++ tail)) = .ok pattern ↔
        readPattern ("Usage:\n" ++ ("\n".intercalate (first :: later) ++ tail)) = .ok pattern := by
  have joined := toList_joined first later tail
  have shape : ("Usage:\n" ++ ("\n".intercalate (first :: later) ++ tail)).toList =
      "Usage:".toList ++ below ((first :: later).map String.toList) tail.toList := by
    rw [← joined, String.toList_append]
    rfl
  refine ⟨fun patterns own => ?_, fun before line after position cause split => ?_,
    fun pattern => ?_⟩
  · have each : ∀ line ∈ (first :: later).map String.toList, Plain line :=
      List.forall_mem_map.2 plain
    obtain ⟨usages, rfl, read⟩ := exists_usages plain own
    exact readPattern_below shape (by simp) each ends read
  · rw [split, List.forall_mem_append, List.forall_mem_cons] at plain
    have ⟨earlier, own, _⟩ := plain
    refine readPattern_joined_refused ?_ earlier own ends.1
    rw [shape, split, List.map_append, List.map_cons]
  · have own := plain first List.mem_cons_self
    have follows : EndOfLine (below (later.map String.toList) tail.toList) :=
      Usage.endOfLine_below _ ends.1
    have behind : ("Usage: " ++ ("\n".intercalate (first :: later) ++ tail)).toList =
        "Usage:".toList ++
          ' ' :: (first.toList ++ below (later.map String.toList) tail.toList) := by
      rw [List.map_cons, Usage.below_cons] at joined
      have same := (List.cons.inj joined).2
      rw [String.toList_append, ← same]
      rfl
    rw [List.map_cons, Usage.below_cons] at shape
    rw [readPattern, readPattern, located_eq_ok, located_eq_ok, shape, behind,
      ofText_header_cons_blank own follows]

/-- An open bracket is found unclosed at the end of its line, among other lines as on its own. -/
theorem readPattern_lines_unclosed :
    readPattern "Usage:\ncp [-r" =
        .error ⟨⟨2, 7⟩, .unexpected "expression, `|` or `]`" none⟩ ∧
      readPattern ("Usage:\n" ++
          ("\n".intercalate ["cp <from>", "cp [-r", "cp"] ++ "\n\n] Copies.")) =
        .error ⟨⟨3, 7⟩, .unexpected "expression, `|` or `]`" (some '\n')⟩ := by
  have plain : ∀ line ∈ ["cp <from>", "cp [-r", "cp"], Plain line.toList := by
    have each : ∀ line ∈ ["cp <from>", "cp [-r", "cp"], '\n' ∉ line.toList ∧ '\r' ∉ line.toList ∧
        Usage.endsBlock line.toList = false := by decide +kernel
    exact fun line mem => ⟨(each line mem).1, (each line mem).2.1, (each line mem).2.2⟩
  have ends : EndsLines "\n\n] Copies.".toList :=
    ⟨.inr ⟨"\n] Copies.".toList, by decide +kernel⟩, by decide +kernel⟩
  have alone : readPattern "Usage:\ncp [-r" =
      .error ⟨⟨2, 7⟩, .unexpected "expression, `|` or `]`" none⟩ := by decide +kernel
  have first : readPattern ("Usage:\n" ++ "cp <from>") = .ok (.leaf (.argument "from")) := by
    decide +kernel
  obtain ⟨expected, found, same, -, joined⟩ :=
    (readPattern_lines plain ends).2.1 ["cp <from>"] "cp [-r" ["cp"] _ _ rfl
      (fun line mem => List.mem_singleton.1 mem ▸ ⟨_, first⟩) alone
  obtain ⟨rfl, rfl⟩ := Cause.unexpected.inj same
  exact ⟨alone, joined⟩

end Synopsis.Manual

import Synopsis.Proofs.Usage.Turn

/-!
# Usage lines one below the other

A block of complete lines is read line by line: it has the usages of the lines in order, or is
refused where the first line is refused that cannot be read. What comes after the block plays no
part in that. The first line may as well stand behind the header.
-/
namespace Synopsis.Usage

open Text

/-- A line that is a usage line wherever it stands below the header. -/
structure Plain (line : List Char) : Prop where
  /-- No line feed is in it. -/
  feed : '\n' ∉ line
  /-- No carriage return is in it. -/
  carriage : '\r' ∉ line
  /-- It does not end the block. -/
  counts : endsBlock line = false

/-- A plain line is not empty. -/
theorem Plain.filled {line : List Char} (plain : Plain line) : line ≠ [] := by
  rintro rfl
  exact absurd plain.counts (by decide)

/-- A line of blanks only ends the block. -/
theorem endsBlock_of_skipBlanks {line : List Char} (blank : skipBlanks line = []) :
    endsBlock line = true := by
  have white : ∀ c ∈ line, isWhite c = true := fun c mem =>
    isWhite_of_isBlank (isBlank_of_skipBlanks blank c mem)
  exact endsBlock_append white []

/-- A plain line goes on after its first blanks. -/
theorem Plain.not_atLineEnd {line : List Char} (plain : Plain line) :
    atLineEnd (skipBlanks line) = false := by
  refine Bool.eq_false_iff.2 fun ended => ?_
  have inside : ∀ c ∈ skipBlanks line, c ∈ line := (List.dropWhile_suffix isBlank).subset
  cases left : skipBlanks line with
  | nil => exact Bool.false_ne_true (plain.counts.symm.trans (endsBlock_of_skipBlanks left))
  | cons c rest =>
    rw [left] at ended inside
    have mem := inside c List.mem_cons_self
    cases atLineEnd_iff.1 ended with
    | feed => exact plain.feed mem
    | carriage => exact plain.carriage mem

/-- Nothing follows a line, or a line feed does. -/
def EndOfLine (text : List Char) : Prop := text = [] ∨ ∃ after, text = '\n' :: after

/-- A line stops where what follows it begins. -/
theorem EndOfLine.stops {text : List Char} (follows : EndOfLine text) : Stops text := by
  rcases follows with rfl | ⟨after, rfl⟩
  · exact .nil
  · exact .feed after

/-- What follows the last line of a block: nothing, or a line feed and a text that is empty or
begins with a line that ends the block. -/
def EndsLines (tail : List Char) : Prop :=
  EndOfLine tail ∧ ∀ line ∈ (lines tail.tail).head?, endsBlock line = true

/-- Lines each after a line feed, and more text after them. -/
def below (list : List (List Char)) (tail : List Char) : List Char :=
  list.flatMap ('\n' :: ·) ++ tail

/-- One more line stands above the others. -/
theorem below_cons (line : List Char) (later : List (List Char)) (tail : List Char) :
    below (line :: later) tail = '\n' :: (line ++ below later tail) := by
  rw [below, List.flatMap_cons, List.append_assoc, List.cons_append, below]

/-- Further lines stand below a line after a line feed. -/
theorem endOfLine_below (list : List (List Char)) {tail : List Char} (follows : EndOfLine tail) :
    EndOfLine (below list tail) := by
  cases list with
  | nil => exact follows
  | cons line later => exact .inr ⟨_, below_cons line later tail⟩

/-- The name of the program may stand after a blank. -/
theorem usageLine_cons_blank {c : Char} (blank : isBlank c = true) (line : List Char) :
    usageLine (c :: line) = usageLine line := by
  rw [usageLine, skipProgram, skipBlanks_cons blank, ← skipProgram, usageLine]

namespace Block

/-- A line without a carriage return in it that counts as a usage line is read before what follows
it. -/
theorem ofLines_line {anyway : Bool} {line rest : List Char} (feed : '\n' ∉ line)
    (carriage : '\r' ∉ line) (filled : line ≠ []) (follows : EndOfLine rest)
    (counts : (!anyway && endsBlock line) = false) :
    ofLines anyway (lines (line ++ rest)) = match usageLine line with
      | .error fault => .error (fault.changed (· ++ rest))
      | .ok (usage, _) => (ofLines false (lines rest.tail)).map (push usage) := by
  rcases follows with rfl | ⟨after, rfl⟩
  · have last := @ofLines_cons anyway line [] [] feed carriage .none (.inr rfl) counts
    rw [List.append_nil] at last ⊢
    rw [lines_single feed filled, last]
    rfl
  · rw [lines_append feed, ofLines_cons feed carriage .feed (.inl (by decide)) counts,
      lines_flatten]
    rfl

/-- A plain line below the header or another line is read before what follows it. -/
theorem ofLines_below_cons {line : List Char} (plain : Plain line) (later : List (List Char))
    {tail : List Char} (follows : EndOfLine tail) :
    ofLines false (lines (below (line :: later) tail).tail) = match usageLine line with
      | .error fault => .error (fault.changed (· ++ below later tail))
      | .ok (usage, _) => (ofLines false (lines (below later tail).tail)).map (push usage) := by
  rw [below_cons, List.tail_cons]
  exact ofLines_line plain.feed plain.carriage plain.filled (endOfLine_below later follows)
    plain.counts

/-- Plain lines that are all accepted make up a block with their usages. -/
theorem ofLines_below {list : List (List Char)} {usages : List Fragment} {tail : List Char}
    (plain : ∀ line ∈ list, Plain line) (ends : EndsLines tail)
    (each : List.Forall₂ (fun line usage => usageLine line = .ok (usage, [])) list usages) :
    ofLines false (lines (below list tail).tail) = .ok ⟨usages, lines tail.tail⟩ := by
  induction each with
  | nil =>
    change ofLines false (lines tail.tail) = .ok ⟨[], lines tail.tail⟩
    cases after : lines tail.tail with
    | nil => rfl
    | cons line later =>
      have last := ends.2 line (by rw [after]; rfl)
      rw [ofLines, last]
      rfl
  | @cons line usage later usages one more ih =>
    obtain ⟨first, others⟩ := List.forall_mem_cons.1 plain
    rw [ofLines_below_cons first later ends.1, one, ih others]
    rfl

/-- The first one of plain lines that is refused is where the block is refused. -/
theorem ofLines_below_refused {front : List (List Char)} {line tail : List Char}
    {later : List (List Char)} {fault : Fault} (plain : ∀ line ∈ front, Plain line)
    (own : Plain line) (follows : EndOfLine tail)
    (accepted : ∀ line ∈ front, ∃ found, usageLine line = .ok found)
    (refused : usageLine line = .error fault) :
    ofLines false (lines (below (front ++ line :: later) tail).tail) =
      .error (fault.changed (· ++ below later tail)) := by
  induction front with
  | nil => rw [List.nil_append, ofLines_below_cons own later follows, refused]
  | cons first front ih =>
    obtain ⟨one, others⟩ := List.forall_mem_cons.1 plain
    have ⟨⟨found, read⟩, more⟩ := List.forall_mem_cons.1 accepted
    rw [List.cons_append, ofLines_below_cons one _ follows, read, ih others more]
    rfl

/-- The first usage line stands below the header, or behind it after a blank. -/
theorem afterHeader_cons_blank {c : Char} (blank : isBlank c = true) {line rest : List Char}
    (plain : Plain line) (follows : EndOfLine rest) :
    afterHeader (c :: (line ++ rest)) = afterHeader ('\n' :: (line ++ rest)) := by
  have keeps := keepsLines_append follows.stops
  have here : atLineEnd (skipBlanks (c :: (line ++ rest))) = false := by
    rw [skipBlanks_cons blank]
    exact (congrArg atLineEnd (skipBlanks_keeps keeps line)).trans
      ((atLineEnd_keeps keeps _).trans plain.not_atLineEnd)
  have feed : '\n' ∉ c :: line := by
    refine List.not_mem_cons_of_ne_of_not_mem ?_ plain.feed
    rintro rfl
    exact absurd blank (by decide)
  have carriage : '\r' ∉ c :: line := by
    refine List.not_mem_cons_of_ne_of_not_mem ?_ plain.carriage
    rintro rfl
    exact absurd blank (by decide)
  -- behind the header the line counts in any case, below it because it does not end the block
  have behind := @ofLines_line true _ _ feed carriage (List.cons_ne_nil c line) follows rfl
  have under := @ofLines_line false _ _ plain.feed plain.carriage plain.filled follows plain.counts
  rw [usageLine_cons_blank blank, List.cons_append] at behind
  rw [afterHeader, here, if_neg Bool.false_ne_true, behind, ← under]
  rfl

end Block

end Synopsis.Usage

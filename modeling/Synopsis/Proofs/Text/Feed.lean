import Synopsis.Proofs.Text.Front
import Synopsis.Text.Leading
import Synopsis.Text.Lines

/-!
# The ends of lines and words

Nothing that is read from the front of a text goes past a line feed. So reading gives the same of a
text that is changed in such a way that each of its lines stays as it is, be it that more text comes
after a line feed at the end, or that the line feeds themselves are written otherwise. Words do not
go past a tab either, nor past a space with another blank after it. A text that ends with a line
feed is a list of complete lines, to which the lines of another text may be added.
-/
namespace Synopsis.Text

/-- A text that ends with a line feed. -/
def Closed (text : List Char) : Prop := text.getLast? = some '\n'

/-- What is left at the end of a closed text is closed. -/
theorem Closed.of_suffix {text rest : List Char} (closed : Closed text) (suffix : rest <:+ text)
    (filled : rest ≠ []) : Closed rest := by
  obtain ⟨front, rfl⟩ := suffix
  rw [Closed, List.getLast?_append, List.getLast?_eq_some_getLast filled, Option.some_or] at closed
  rw [Closed, List.getLast?_eq_some_getLast filled, closed]

/-- A closed text holds a line feed. -/
theorem Closed.mem {text : List Char} (closed : Closed text) : '\n' ∈ text :=
  List.mem_of_getLast? closed

/-- A closed text with something before it is closed. -/
theorem Closed.append {text : List Char} (closed : Closed text) (front : List Char) :
    Closed (front ++ text) := by
  rw [Closed, List.getLast?_append, closed, Option.some_or]

/-- A closed text is closed without its first character, unless that is all of it. -/
theorem Closed.tail {c : Char} {rest : List Char} (closed : Closed (c :: rest))
    (filled : rest ≠ []) : Closed rest :=
  closed.of_suffix (List.suffix_cons c rest) filled

/-- Something follows a first character that is no line feed. -/
theorem Closed.filled {c : Char} {rest : List Char} (closed : Closed (c :: rest))
    (other : c ≠ '\n') : rest ≠ [] := by
  rintro rfl
  exact other (Option.some.inj closed)

/-- A text that is not empty has lines. -/
theorem lines_ne_nil {text : List Char} (filled : text ≠ []) : lines text ≠ [] := by
  intro none
  have flat := lines_flatten text
  rw [none, List.flatten_nil] at flat
  exact filled flat.symm

/-- A character other than a line feed belongs to the first line of what follows. -/
theorem exists_lines_cons {c : Char} {rest : List Char} (other : c ≠ '\n') (filled : rest ≠ []) :
    ∃ line later, lines rest = line :: later ∧ lines (c :: rest) = (c :: line) :: later := by
  cases found : lines rest with
  | nil => exact absurd found (lines_ne_nil filled)
  | cons line later => exact ⟨line, later, rfl, by rw [lines, if_neg other, found]⟩

/-- Every line of a closed text is closed. -/
theorem Closed.of_mem_lines {text line : List Char} (closed : Closed text)
    (mem : line ∈ lines text) : Closed line := by
  induction text generalizing line with
  | nil => contradiction
  | cons c rest ih =>
    by_cases feed : c = '\n'
    · rw [lines, if_pos feed] at mem
      rcases List.mem_cons.1 mem with rfl | later
      · rfl
      · exact ih (closed.tail fun none => by rw [none] at later; contradiction) later
    · have filled := closed.filled feed
      obtain ⟨first, later, found, same⟩ := exists_lines_cons feed filled
      rw [found] at ih
      rw [same] at mem
      rcases List.mem_cons.1 mem with rfl | tail
      · exact (ih (closed.tail filled) List.mem_cons_self).append [c]
      · exact ih (closed.tail filled) (List.mem_cons_of_mem _ tail)

/-- The lines of a text after a closed one are added to its lines. -/
theorem Closed.lines_append {text : List Char} (closed : Closed text) (later : List Char) :
    lines (text ++ later) = lines text ++ lines later := by
  induction text with
  | nil => contradiction
  | cons c rest ih =>
    rw [List.cons_append, lines]
    by_cases feed : c = '\n'
    · rw [lines, if_pos feed, if_pos feed]
      by_cases last : rest = []
      · rw [last]
        rfl
      · rw [ih (closed.tail last)]
        rfl
    · have filled := closed.filled feed
      obtain ⟨first, more, found, same⟩ := exists_lines_cons feed filled
      rw [if_neg feed, ih (closed.tail filled), found, same]
      rfl

/-- A text begins where a line stops: at its end or at a line break. -/
inductive Stops : List Char → Prop where
  /-- Nothing is left. -/
  | nil : Stops []
  /-- A line feed comes next. -/
  | feed (rest : List Char) : Stops ('\n' :: rest)
  /-- A carriage return comes next. -/
  | carriage (rest : List Char) : Stops ('\r' :: rest)

/-- No character of a line break is in the class. -/
def Inline (inside : Char → Bool) : Prop := inside '\n' = false ∧ inside '\r' = false

instance (inside : Char → Bool) : Decidable (Inline inside) :=
  inferInstanceAs (Decidable (inside '\n' = false ∧ inside '\r' = false))

/-- No character of a class within lines stands where a line stops. -/
theorem Stops.ends {inside : Char → Bool} {text : List Char} (stops : Stops text)
    (inline : Inline inside) : Ends inside text := by
  cases stops with
  | nil => exact ends_nil inside
  | feed rest => exact ends_cons.2 inline.1
  | carriage rest => exact ends_cons.2 inline.2

/-- A text begins where a word stops: where a line does, at a tab, or at a space with another blank
after it. -/
inductive Pauses : List Char → Prop where
  /-- Nothing is left. -/
  | nil : Pauses []
  /-- A line feed comes next. -/
  | feed (rest : List Char) : Pauses ('\n' :: rest)
  /-- A carriage return comes next. -/
  | carriage (rest : List Char) : Pauses ('\r' :: rest)
  /-- A tab comes next. -/
  | tab (rest : List Char) : Pauses ('\t' :: rest)
  /-- Two spaces come next. -/
  | space (rest : List Char) : Pauses (' ' :: ' ' :: rest)
  /-- A space and a tab come next. -/
  | spaceTab (rest : List Char) : Pauses (' ' :: '\t' :: rest)

/-- A word stops where its line does. -/
theorem Stops.pauses {text : List Char} (stops : Stops text) : Pauses text := by
  cases stops with
  | nil => exact .nil
  | feed rest => exact .feed rest
  | carriage rest => exact .carriage rest

/-- Where a word stops but not at a blank, its line does. -/
theorem Pauses.stops {text : List Char} (pauses : Pauses text) (ends : Ends isBlank text) :
    Stops text := by
  cases pauses with
  | nil => exact .nil
  | feed rest => exact .feed rest
  | carriage rest => exact .carriage rest
  | tab rest => exact absurd (ends_cons.1 ends) (by decide)
  | space rest => exact absurd (ends_cons.1 ends) (by decide)
  | spaceTab rest => exact absurd (ends_cons.1 ends) (by decide)

/-- No character of a line break and no blank is in the class. -/
def Unbroken (inside : Char → Bool) : Prop :=
  Inline inside ∧ inside ' ' = false ∧ inside '\t' = false

instance (inside : Char → Bool) : Decidable (Unbroken inside) :=
  inferInstanceAs (Decidable (Inline inside ∧ inside ' ' = false ∧ inside '\t' = false))

/-- No character of a class within words stands where a word stops. -/
theorem Pauses.ends {inside : Char → Bool} {text : List Char} (pauses : Pauses text)
    (unbroken : Unbroken inside) : Ends inside text := by
  cases pauses with
  | nil => exact ends_nil inside
  | feed rest => exact ends_cons.2 unbroken.1.1
  | carriage rest => exact ends_cons.2 unbroken.1.2
  | tab rest => exact ends_cons.2 unbroken.2.2
  | space rest => exact ends_cons.2 unbroken.2.1
  | spaceTab rest => exact ends_cons.2 unbroken.2.1

/-- A change to texts keeps each first character but where a text stops. There the changed text
stops as well. -/
def Keeps (stops : List Char → Prop) (f : List Char → List Char) : Prop :=
  ∀ text, (stops text ∧ stops (f text)) ∨ ∃ c rest, text = c :: rest ∧ f text = c :: f rest

section Keeps

variable {stops : List Char → Prop} {f : List Char → List Char} (keeps : Keeps stops f)

include keeps

/-- Dropping the characters of a class, none of which stands where a text stops, is the same after a
change. -/
theorem dropWhile_keeps {inside : Char → Bool} (apart : ∀ {text}, stops text → Ends inside text)
    (text : List Char) : (f text).dropWhile inside = f (text.dropWhile inside) := by
  induction text with
  | nil =>
    rcases keeps [] with ⟨-, same⟩ | ⟨c, rest, none, -⟩
    · exact (apart same).dropWhile
    · contradiction
  | cons c rest ih =>
    rcases keeps (c :: rest) with ⟨stopped, same⟩ | ⟨d, more, split, same⟩
    · rw [(apart stopped).dropWhile, (apart same).dropWhile]
    · obtain ⟨rfl, rfl⟩ := List.cons.inj split
      rw [same, List.dropWhile_cons, List.dropWhile_cons]
      by_cases member : inside c = true
      · rw [if_pos member, if_pos member, ih]
      · rw [if_neg member, if_neg member, same]

/-- Taking the characters of a class, none of which stands where a text stops, is the same after a
change. -/
theorem takeWhile_keeps {inside : Char → Bool} (apart : ∀ {text}, stops text → Ends inside text)
    (text : List Char) : (f text).takeWhile inside = text.takeWhile inside := by
  induction text with
  | nil =>
    rcases keeps [] with ⟨-, same⟩ | ⟨c, rest, none, -⟩
    · exact (apart same).takeWhile
    · contradiction
  | cons c rest ih =>
    rcases keeps (c :: rest) with ⟨stopped, same⟩ | ⟨d, more, split, same⟩
    · rw [(apart stopped).takeWhile, (apart same).takeWhile]
    · obtain ⟨rfl, rfl⟩ := List.cons.inj split
      rw [same, List.takeWhile_cons, List.takeWhile_cons, ih]

/-- A reader reads the same of a changed text if it reads nothing where a text stops and the same of
two texts that begin with one character. -/
theorem Keeps.reads {α : Type} {read : List Char → Option α} {g : α → α}
    (none : ∀ {text}, stops text → read text = none)
    (step : ∀ c rest, read (c :: f rest) = (read (c :: rest)).map g) (text : List Char) :
    read (f text) = (read text).map g := by
  rcases keeps text with ⟨stopped, same⟩ | ⟨c, rest, rfl, same⟩
  · rw [none stopped, none same, Option.map_none]
  · rw [same, step]

/-- A fixed word, of which no character stands where a text stops, is read alike. -/
theorem after?_keeps {word : List Char}
    (apart : ∀ {text}, stops text → Ends (word.contains ·) text) :
    ∀ text, after? word (f text) = (after? word text).map f := by
  induction word with
  | nil => exact fun text => rfl
  | cons w word ih =>
    refine keeps.reads (fun {text} stopped => ?_) fun c rest => ?_
    · cases text with
      | nil => rfl
      | cons c rest =>
        have other := ends_cons.1 (apart stopped)
        rw [List.contains_cons, Bool.or_eq_false_iff, beq_eq_false_iff_ne] at other
        rw [after?, if_neg other.1.symm]
    · have later : ∀ {text}, stops text → Ends (word.contains ·) text := fun stopped =>
        (apart stopped).mono fun c mem => by rw [List.contains_cons, mem, Bool.or_true]
      rw [after?, after?, ih later]
      split <;> rfl

/-- A fixed word in any case, of which no character stands where a text stops, is read alike. -/
theorem afterFolded?_keeps {word : List Char}
    (apart : ∀ {text}, stops text → Ends (fun c => word.contains c.toLower) text) :
    ∀ text, afterFolded? word (f text) = (afterFolded? word text).map f := by
  induction word with
  | nil => exact fun text => rfl
  | cons w word ih =>
    refine keeps.reads (fun {text} stopped => ?_) fun c rest => ?_
    · cases text with
      | nil => rfl
      | cons c rest =>
        have other := ends_cons.1 (apart stopped)
        rw [List.contains_cons, Bool.or_eq_false_iff, beq_eq_false_iff_ne] at other
        rw [afterFolded?, if_neg other.1.symm]
    · have later : ∀ {text}, stops text → Ends (fun c => word.contains c.toLower) text :=
        fun stopped => (apart stopped).mono fun c mem => by
          rw [List.contains_cons, mem, Bool.or_true]
      rw [afterFolded?, afterFolded?, ih later]
      split <;> rfl

end Keeps

section Words

variable {f : List Char → List Char} (keeps : Keeps Pauses f)

include keeps

/-- A name is read within a word. -/
theorem name?_keeps : ∀ text, name? (f text) = (name? text).map (Prod.map id f) := by
  refine keeps.reads (fun pauses => by cases pauses <;> rfl) fun c rest => ?_
  rw [name?, name?, takeWhile_keeps keeps (·.ends (by decide)),
    dropWhile_keeps keeps (·.ends (by decide))]
  split <;> rfl

/-- No name goes on where a word stops. -/
theorem continuesName_keeps (text : List Char) : continuesName (f text) = continuesName text := by
  have none : ∀ {left}, Pauses left → continuesName left = false := by
    intro left pauses
    cases pauses <;> rfl
  rcases keeps text with ⟨pauses, same⟩ | ⟨c, rest, rfl, same⟩
  · rw [none pauses, none same]
  · rw [same, continuesName, continuesName]

end Words

/-- A change to texts that keeps each character but the line feeds. Where a line stops, it does so
in the changed text. -/
structure KeepsLines (f : List Char → List Char) : Prop where
  /-- Other characters than line feeds are kept. -/
  other : ∀ {c rest}, c ≠ '\n' → f (c :: rest) = c :: f rest
  /-- A line stops where a line feed was. -/
  feed : ∀ rest, Stops (f ('\n' :: rest))
  /-- A line stops where the text ended. -/
  nil : Stops (f [])
  /-- What is left of a text does not become longer than the text. -/
  length : ∀ {rest text}, rest <:+ text → (f rest).length ≤ (f text).length

/-- More text that begins where a line stops keeps all lines. -/
theorem keepsLines_append {after : List Char} (stops : Stops after) : KeepsLines (· ++ after) where
  other _ := rfl
  feed rest := .feed _
  nil := stops
  length suffix := by
    have shorter := suffix.length_le
    rw [List.length_append, List.length_append]
    omega

section KeepsLines

variable {f : List Char → List Char} (keeps : KeepsLines f)

include keeps

/-- A line stops before and after a change, or both texts begin with one character. -/
theorem KeepsLines.lines : Keeps Stops f := by
  intro text
  cases text with
  | nil => exact .inl ⟨.nil, keeps.nil⟩
  | cons c rest =>
    by_cases feed : c = '\n'
    · subst feed
      exact .inl ⟨.feed rest, keeps.feed rest⟩
    · exact .inr ⟨c, rest, rfl, keeps.other feed⟩

/-- A word stops before and after a change, or both texts begin with one character. -/
theorem KeepsLines.words : Keeps Pauses f := fun text =>
  (keeps.lines text).imp_left (And.imp Stops.pauses Stops.pauses)

/-- Blanks are skipped within a line. -/
theorem skipBlanks_keeps (text : List Char) : skipBlanks (f text) = f (skipBlanks text) :=
  dropWhile_keeps keeps.lines (·.ends (by decide)) text

/-- Blanks are read within a line. -/
theorem blanks?_keeps : ∀ text, blanks? (f text) = (blanks? text).map f := by
  refine keeps.lines.reads (fun stops => by cases stops <;> rfl) fun c rest => ?_
  rw [blanks?, blanks?, skipBlanks_keeps keeps]
  split <;> rfl

end KeepsLines

end Synopsis.Text

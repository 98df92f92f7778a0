import Synopsis.Proofs.Manual.Refused

/-!
# Manuals with text before the header

The header of a manual is looked for line by line. Complete lines without a header, whatever they
hold, leave the header, and with it all that is read, where it is in the text after them. They only
lower the place of a diagnostic.
-/
namespace Synopsis

open Text (Closed)

/-- The same diagnostic some lines further down. -/
def Diagnostic.lower (lines : Nat) (diagnostic : Diagnostic) : Diagnostic :=
  { diagnostic with position := diagnostic.position.lower lines }

/-- Nothing, or complete lines. -/
def Text.Complete (text : List Char) : Prop := text = [] ∨ Closed text

namespace Manual

/-- The usage block of a text is the same after complete lines without a header. -/
theorem ofText_preamble {before : List Char} (complete : Text.Complete before)
    (none : ¬ Usage.HasHeader before) (text : List Char) :
    Usage.Block.ofText (before ++ text) = Usage.Block.ofText text := by
  rcases complete with rfl | closed
  · rfl
  · obtain ⟨body, rfl⟩ := List.getLast?_eq_some_iff.1 closed
    have missing := Usage.afterHeader?_eq_none_iff.2 none
    rw [Usage.afterHeader?, Usage.findHeader_append_feed, Option.or_eq_none_iff] at missing
    -- the body has no header of its own, and the line feed after it ends any word
    have found : Usage.afterHeader? (body ++ ['\n'] ++ text) = Usage.afterHeader? text := by
      rw [Usage.afterHeader?, List.append_assoc, List.singleton_append,
        Usage.findHeader_append_feed, Option.map_eq_none_iff.1 missing.1]
      rfl
    rw [Usage.Block.ofText, Usage.Block.ofText, found]

/-- The parts of a text are the same after complete lines without a header. -/
theorem parts_preamble {before : List Char} (complete : Text.Complete before)
    (none : ¬ Usage.HasHeader before) (text : List Char) :
    parts (before ++ text) = parts text := by
  rw [parts, parts, ofText_preamble complete none]

/-- A result for a text is located as many lines further down as there are complete lines before the
text. -/
theorem located_preamble {α : Type} {before text : List Char} {result : Except Fault α}
    (complete : Text.Complete before)
    (left : ∀ fault, result = .error fault → fault.rest <:+ text) :
    located (before ++ text) result =
      (located text result).mapError (Diagnostic.lower (before.count '\n')) := by
  rcases result with fault | found
  · have place : Position.before (before ++ text) fault.rest =
        (Position.before text fault.rest).lower (before.count '\n') := by
      rcases complete with rfl | closed
      · rfl
      · exact Position.before_append_closed closed (left fault rfl)
    rw [located, Fault.diagnostic, place]
    rfl
  · rfl

/-- What is made of the parts of a text is the same after complete lines without a header, but for
the place where they are refused. -/
theorem located_parts_preamble {α : Type} {before : List Char} (complete : Text.Complete before)
    (none : ¬ Usage.HasHeader before) (text : List Char) (make : Pattern Atom × Catalog → α) :
    located (before ++ text) ((parts (before ++ text)).map make) =
      (located text ((parts text).map make)).mapError
        (Diagnostic.lower (before.count '\n')) := by
  rw [parts_preamble complete none]
  refine located_preamble complete ?_
  cases read : parts text with
  | error fault =>
    rintro _ ⟨⟩
    exact left_of_parts read
  | ok found => exact nofun

/-- A preamble is ignored. Complete lines in which no header word begins at a boundary of words,
whatever else they hold, leave the pattern, the catalog and the interface of the text after them as
they are. Where that text is refused, it is refused after them for the same cause and in the same
column, as many lines further down as they are. -/
theorem readers_preamble {before : String}
    (complete : before.toList = [] ∨ before.toList.getLast? = some '\n')
    (none : ¬ Usage.HasHeader before.toList) (text : String) :
    readPattern (before ++ text) =
        (readPattern text).mapError (Diagnostic.lower (before.toList.count '\n')) ∧
      readCatalog (before ++ text) =
        (readCatalog text).mapError (Diagnostic.lower (before.toList.count '\n')) ∧
      readInterface (before ++ text) =
        (readInterface text).mapError (Diagnostic.lower (before.toList.count '\n')) := by
  refine ⟨?_, ?_, ?_⟩
  · rw [readPattern, readPattern, String.toList_append, ofText_preamble complete none]
    refine located_preamble complete ?_
    cases read : Usage.Block.ofText text.toList with
    | error fault =>
      rintro _ ⟨⟩
      exact (Usage.Block.refused_of_ofText read).left
    | ok block =>
      intro fault same
      contradiction
  · rw [readCatalog_eq, readCatalog_eq, String.toList_append]
    exact located_parts_preamble complete none text.toList _
  · rw [readInterface_eq, readInterface_eq, String.toList_append]
    exact located_parts_preamble complete none text.toList _

/-- A record, an open tag and a header word within a word stand before the header; the place of an
unclosed bracket is four lines further down. -/
theorem readers_preamble_tag :
    let before := "p [é] (\n  -x, --y=<Z>  [default: \nmisusage: ¿\n\n"
    let cause := Cause.unexpected "expression, `|` or `]`" (some '\n')
    readInterface "Usage:\n  p [-a\n" = .error ⟨⟨2, 8⟩, cause⟩ ∧
      ¬ Usage.HasHeader before.toList ∧
      readInterface (before ++ "Usage:\n  p [-a\n") = .error ⟨⟨6, 8⟩, cause⟩ := by
  intro before cause
  have read : readInterface "Usage:\n  p [-a\n" = .error ⟨⟨2, 8⟩, cause⟩ := by decide +kernel
  have none : ¬ Usage.HasHeader before.toList :=
    Usage.afterHeader?_eq_none_iff.1 (by decide +kernel)
  have lowered := (readers_preamble (.inr (by decide +kernel)) none "Usage:\n  p [-a\n").2.2
  rw [read] at lowered
  exact ⟨read, none, lowered.trans (by decide +kernel)⟩

end Manual

end Synopsis

import Synopsis.Proofs.Manual.Lines
import Synopsis.Proofs.Text.Layout

/-!
# Manuals with another layout

The blanks in a usage line only set its words apart, but for a single space that joins a placeholder
to an option. So a line with other runs of blanks, where none is a single space before or after, is
read alike: both lines settle to one that is read like either of them.
-/
namespace Synopsis

open Text (Respaced settle)

namespace Usage

/-- The readers for the parts of expressions see through settling. -/
theorem transparent_settle : Transparent settle :=
  transparent_of_keeps Text.keeps_settle Text.skipBlanks_settle Text.blanks?_settle
    Text.settle_length_le

/-- The cause of a fault in a usage line is kept when the line is settled. -/
theorem cause_changed_settle {fault : Fault} {line : List Char} (stands : fault.Stands line) :
    (fault.changed settle).cause = fault.cause := by
  obtain ⟨what, same, changed⟩ := stands.changed_eq
  rw [changed, Fault.expected, Text.head?_settle stands.skipped, same]
  rfl

/-- Usage lines that differ only in their layout have the same usage, or are refused for the same
cause. -/
theorem usageLine_respaced {line other : List Char} (respaced : Respaced line other) :
    (∃ usage rest rest', usageLine line = .ok (usage, rest) ∧
      usageLine other = .ok (usage, rest')) ∨
    ∃ fault fault', usageLine line = .error fault ∧ usageLine other = .error fault' ∧
      fault'.cause = fault.cause := by
  have settled : ∀ text, usageLine (settle text) = changed settle (usageLine text) :=
    usageLine_changed transparent_settle Text.keeps_settle
  have same : changed settle (usageLine line) = changed settle (usageLine other) := by
    rw [← settled, ← settled, respaced.settle]
  cases read : usageLine line with
  | ok found =>
    obtain ⟨usage, rest⟩ := found
    cases also : usageLine other with
    | ok found' =>
      obtain ⟨usage', rest'⟩ := found'
      rw [read, also] at same
      obtain ⟨rfl, -⟩ := ok_pair_inj same
      exact .inl ⟨usage, rest, rest', rfl, rfl⟩
    | error fault' =>
      rw [read, also] at same
      contradiction
  | error fault =>
    cases also : usageLine other with
    | ok found' =>
      rw [read, also] at same
      contradiction
    | error fault' =>
      rw [read, also] at same
      have cause := congrArg Fault.cause (Except.error.inj same)
      rw [cause_changed_settle (usageLine_stands read),
        cause_changed_settle (usageLine_stands also)] at cause
      exact .inr ⟨fault, fault', rfl, rfl, cause.symm⟩

end Usage

namespace Manual

open Usage (Plain usageLine)

/-- All readers accept a text, with this pattern and this catalog. -/
def Describes (text : String) (pattern : Pattern Atom) (catalog : Catalog) : Prop :=
  readPattern text = .ok pattern ∧ readCatalog text = .ok catalog ∧
    readInterface text = .ok (.assemble pattern catalog)

/-- All readers refuse a text at the same place for this cause. -/
def RefusedFor (text : String) (cause : Cause) : Prop :=
  ∃ position, readPattern text = .error ⟨position, cause⟩ ∧
    readCatalog text = .error ⟨position, cause⟩ ∧ readInterface text = .error ⟨position, cause⟩

/-- A single usage line that is accepted gives the pattern and the catalog. -/
theorem describes_line {line : String} {usage : Usage.Fragment} {rest : List Char}
    (plain : Plain line.toList) (read : usageLine line.toList = .ok (usage, rest)) :
    Describes ("Usage:\n" ++ line) usage.pattern (.ofMentions usage.mentions) := by
  have block := ofText_line plain
  rw [read] at block
  have described : parts ("Usage:\n".toList ++ line.toList) =
      .ok (usage.pattern, .ofMentions usage.mentions) := by
    rw [parts, block]
    simp [Usage.Block.fragment, Usage.Fragment.choice, Description.ofLines, Catalog.describeAll]
    rfl
  refine ⟨?_, ?_, ?_⟩
  · rw [readPattern, String.toList_append, block]
    rfl
  · rw [readCatalog_eq, String.toList_append, described]
    rfl
  · rw [readInterface_eq, String.toList_append, described]
    rfl

/-- A single usage line that is refused is where the text is. -/
theorem refusedFor_line {line : String} {fault : Fault} (plain : Plain line.toList)
    (read : usageLine line.toList = .error fault) :
    RefusedFor ("Usage:\n" ++ line) fault.cause := by
  have block := ofText_line plain
  rw [read] at block
  have refused : parts ("Usage:\n".toList ++ line.toList) = .error fault := by
    rw [parts, block]
  refine ⟨.before ("Usage:\n".toList ++ line.toList) fault.rest, ?_, ?_, ?_⟩
  · rw [readPattern, String.toList_append, block]
    rfl
  · rw [readCatalog_eq, String.toList_append, refused]
    rfl
  · rw [readInterface_eq, String.toList_append, refused]
    rfl

/-- Layout does not matter but for single spaces. Two usage lines below a header that differ only in
runs of blanks, none of which is a single space in either line, are both accepted with the same
pattern and the same catalog, or both refused for the same cause. -/
theorem readers_respaced {line other : String} (plain : Plain line.toList)
    (plain' : Plain other.toList) (respaced : Respaced line.toList other.toList) :
    (∃ pattern catalog, Describes ("Usage:\n" ++ line) pattern catalog ∧
      Describes ("Usage:\n" ++ other) pattern catalog) ∨
    ∃ cause, RefusedFor ("Usage:\n" ++ line) cause ∧ RefusedFor ("Usage:\n" ++ other) cause := by
  rcases Usage.usageLine_respaced respaced with
    ⟨usage, rest, rest', read, also⟩ | ⟨fault, fault', read, also, same⟩
  · exact .inl ⟨_, _, describes_line plain read, describes_line plain' also⟩
  · exact .inr ⟨fault.cause, refusedFor_line plain read, same ▸ refusedFor_line plain' also⟩

/-- Neither a tab nor two spaces join a placeholder to an option, so that the word after them is a
command; the single space that joins one is left as it is. -/
theorem readers_respaced_command :
    let line := "\tcp [-a  TO |\t(-b AT)  ...]\t"
    let other := "  cp [-a\tTO |   (-b AT)\t\t...]\t "
    let pattern := Pattern.opt (.alt
      [.seq [.leaf (.short 'a'), .leaf (.command "TO")], .rep (.leaf (.short 'b'))])
    Respaced line.toList other.toList ∧ ∃ catalog,
      Describes ("Usage:\n" ++ line) pattern catalog ∧
        Describes ("Usage:\n" ++ other) pattern catalog := by
  intro line other pattern
  have respaced : Respaced line.toList other.toList := by decide +kernel
  have plain : Plain line.toList := ⟨by decide +kernel, by decide +kernel, by decide +kernel⟩
  have plain' : Plain other.toList := ⟨by decide +kernel, by decide +kernel, by decide +kernel⟩
  have accepted : readPattern ("Usage:\n" ++ line) = .ok pattern := by decide +kernel
  refine ⟨respaced, ?_⟩
  rcases readers_respaced plain plain' respaced with
    ⟨found, catalog, one, two⟩ | ⟨cause, ⟨position, refused, -⟩, -⟩
  · obtain rfl := Except.ok.inj (one.1.symm.trans accepted)
    exact ⟨catalog, one, two⟩
  · rw [accepted] at refused
    contradiction

end Manual

end Synopsis

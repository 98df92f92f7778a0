import Synopsis.Description
import Synopsis.Interface
import Synopsis.Usage.Block

/-!
# Manuals

A manual is the text in which a program documents its usage, together with the interface that
the text describes. The usage block gives the pattern and the options mentioned in it; the
descriptions after it give the catalog; assembling the two gives the interface.
-/
namespace Synopsis

/-- The text of a manual and the interface it describes. -/
structure Manual where
  /-- The text as it was given. -/
  text : String
  /-- The interface that the text describes. -/
  interface : Interface
deriving DecidableEq

namespace Manual

/-- A result with its fault placed in the text. -/
def located {α : Type} (text : List Char) : Except Fault α → Except Diagnostic α
  | .ok value => .ok value
  | .error fault => .error (fault.diagnostic text)

/-- The usage lines of a text and the catalog that it describes. -/
def parts (text : List Char) : Except Fault (Pattern Atom × Catalog) :=
  match Usage.Block.ofText text with
  | .error fault => .error fault
  | .ok block =>
    match Description.ofLines block.remaining with
    | .error fault => .error fault
    | .ok entries =>
      .ok (block.fragment.pattern,
        (Catalog.ofMentions block.fragment.mentions).describeAll entries)

/-- The pattern of the usage lines of a text, as it is written. -/
def readPattern (text : String) : Except Diagnostic (Pattern Atom) :=
  located text.toList (match Usage.Block.ofText text.toList with
    | .error fault => .error fault
    | .ok block => .ok block.fragment.pattern)

/-- The catalog that a text describes, before it is known which atoms may occur more than once. -/
def readCatalog (text : String) : Except Diagnostic Catalog :=
  located text.toList (match parts text.toList with
    | .error fault => .error fault
    | .ok (_, catalog) => .ok catalog)

/-- The interface that a text describes. -/
def readInterface (text : String) : Except Diagnostic Interface :=
  located text.toList (match parts text.toList with
    | .error fault => .error fault
    | .ok (pattern, catalog) => .ok (.assemble pattern catalog))

/-- The manual with the given text. -/
def read (text : String) : Except Diagnostic Manual :=
  match readInterface text with
  | .error diagnostic => .error diagnostic
  | .ok interface => .ok ⟨text, interface⟩

end Manual

end Synopsis

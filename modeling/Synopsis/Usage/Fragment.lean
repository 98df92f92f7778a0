import Synopsis.Pattern
import Synopsis.Usage.Option

/-!
# Fragments of usage lines

What is read of a usage line is a pattern together with the options mentioned in it, in the order
of the text.
-/
namespace Synopsis.Usage

/-- A piece of a usage line. -/
structure Fragment where
  /-- The pattern it describes. -/
  pattern : Pattern Atom
  /-- The options in it, with every occurrence. -/
  mentions : List Mention
deriving DecidableEq

namespace Fragment

/-- A command, an argument or the placeholder for options. -/
def ofAtom (atom : Atom) : Fragment := ⟨.leaf atom, []⟩

/-- The mentions of one written option: a single one stands for itself, several stand for any of
them, repeatedly. -/
def ofMentions (mentions : List Mention) : Fragment :=
  match mentions with
  | [single] => ⟨.leaf single.option, mentions⟩
  | _ => ⟨.rep (.choice (mentions.map fun found => .leaf found.option)), mentions⟩

/-- Fragments in order. -/
def sequence (parts : List Fragment) : Fragment :=
  ⟨.sequence (parts.map pattern), parts.flatMap mentions⟩

/-- A choice of fragments. -/
def choice (branches : List Fragment) : Fragment :=
  ⟨.choice (branches.map pattern), branches.flatMap mentions⟩

/-- An optional fragment. -/
def optional (body : Fragment) : Fragment := { body with pattern := .opt body.pattern }

/-- A repeated fragment. -/
def repeated (body : Fragment) : Fragment := { body with pattern := .rep body.pattern }

end Fragment

end Synopsis.Usage

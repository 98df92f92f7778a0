import Mathlib.Data.List.Chain
import Synopsis.Proofs.Usage.Phrase

/-!
# Cutting usage lines into pieces

A usage line is cut into blanks, brackets, bars, ellipses and phrases. A cut is sound when every
phrase goes on as far as it can, brackets are nested, and no expression begins where another one
ends. Sound cuts of adjoining texts are put together as long as no expression meets another there.
-/
namespace Synopsis.Usage

open Text

/-- The character that opens a bracket. -/
def Bracket.opening : Bracket → Char
  | .square => '['
  | .round => '('

/-- A piece of a usage line. -/
inductive Piece where
  /-- A space or a tab. -/
  | blank (c : Char)
  /-- The opening of a bracket. -/
  | opening (bracket : Bracket)
  /-- The closing of a bracket. -/
  | closing (bracket : Bracket)
  /-- What sets two alternatives apart. -/
  | bar
  /-- An ellipsis. -/
  | dots
  /-- An expression without brackets. -/
  | phrase (words : Phrase)
deriving DecidableEq, Repr

namespace Piece

/-- The characters of the piece. -/
def text : Piece → List Char
  | .blank c => [c]
  | .opening bracket => [bracket.opening]
  | .closing bracket => [bracket.closing]
  | .bar => ['|']
  | .dots => ['.', '.', '.']
  | .phrase words => words.text

/-- The atoms that the piece stands for. -/
def atoms : Piece → List Atom
  | .phrase words => words.atoms
  | _ => []

/-- The options that the piece mentions, and whether each has a placeholder. -/
def mentions : Piece → List Mention
  | .phrase words => words.mentions
  | _ => []

/-- A blank is a space or a tab, and a phrase goes on as far as it can before the text after it. -/
def Fits : Piece → List Char → Prop
  | .blank c, _ => isBlank c = true
  | .phrase words, after => words.Fits after
  | _, _ => True

/-- Whether the piece is a bracket. -/
def isBracket : Piece → Bool
  | .opening _ => true
  | .closing _ => true
  | _ => false

/-- Whether an expression may begin with the piece. -/
def begins : Piece → Bool
  | .opening _ => true
  | .phrase _ => true
  | _ => false

/-- Whether an expression may end with the piece. -/
def ends : Piece → Bool
  | .closing _ => true
  | .dots => true
  | .phrase _ => true
  | _ => false

/-- No expression ends with the first piece where another one begins with the second. -/
def MayMeet (first second : Piece) : Prop := ¬(first.ends = true ∧ second.begins = true)

end Piece

/-- Every piece fits before the text of the later ones and the rest. -/
def Fitting (rest : List Char) : List Piece → Prop
  | [] => True
  | piece :: later => piece.Fits (later.flatMap Piece.text ++ rest) ∧ Fitting rest later

/-- Every bracket is closed by one of its kind, after pieces among which every bracket is. -/
inductive Nested : List Piece → Prop where
  /-- No pieces. -/
  | nil : Nested []
  /-- A piece that is no bracket, and more pieces. -/
  | cons {piece : Piece} {later : List Piece} (plain : piece.isBracket = false)
      (more : Nested later) : Nested (piece :: later)
  /-- Pieces in a bracket, and more pieces after it. -/
  | group (bracket : Bracket) {inside later : List Piece} (inner : Nested inside)
      (more : Nested later) : Nested (.opening bracket :: (inside ++ .closing bracket :: later))

/-- Expressions are set apart: none begins right where another one ends. -/
def SetApart (pieces : List Piece) : Prop := pieces.IsChain Piece.MayMeet

/-- The front of a text is cut into pieces, up to the rest. -/
structure Cut (pieces : List Piece) (text rest : List Char) : Prop where
  /-- The pieces and the rest are the text. -/
  joined : text = pieces.flatMap Piece.text ++ rest
  /-- No piece could be longer, and no placeholder is left out. -/
  fitting : Fitting rest pieces
  /-- Brackets are nested. -/
  nested : Nested pieces
  /-- Expressions do not touch. -/
  apart : SetApart pieces

/-- Nested pieces one after the other are nested. -/
theorem Nested.append {front back : List Piece} (first : Nested front) (second : Nested back) :
    Nested (front ++ back) := by
  induction first with
  | nil => exact second
  | cons plain more ih => exact .cons plain ih
  | group bracket inner more innerIh ih =>
    rw [List.cons_append, List.append_assoc, List.cons_append]
    exact .group bracket inner ih

/-- Pieces fit if the front ones fit before the others and these before the rest. -/
theorem fitting_append {front back : List Piece} {rest : List Char} :
    Fitting rest (front ++ back) ↔
      Fitting (back.flatMap Piece.text ++ rest) front ∧ Fitting rest back := by
  induction front with
  | nil => simp only [List.nil_append, Fitting, true_and]
  | cons piece later ih =>
    simp only [List.cons_append, Fitting, ih, List.flatMap_append, List.append_assoc, and_assoc]

/-- Cuts of adjoining texts make a cut of both, unless two expressions meet between them. -/
theorem Cut.append {front back : List Piece} {text middle rest : List Char}
    (first : Cut front text middle) (second : Cut back middle rest)
    (meet : ∀ one ∈ front.getLast?, ∀ other ∈ back.head?, one.MayMeet other) :
    Cut (front ++ back) text rest where
  joined := by rw [first.joined, second.joined, List.flatMap_append, List.append_assoc]
  fitting := by
    rw [fitting_append, ← second.joined]
    exact ⟨first.fitting, second.fitting⟩
  nested := first.nested.append second.nested
  apart := List.isChain_append.2 ⟨first.apart, second.apart, meet⟩

/-- Nothing is cut off. -/
theorem cut_nil (text : List Char) : Cut [] text text := ⟨rfl, trivial, .nil, .nil⟩

/-- A single piece that is no bracket is cut off. -/
theorem cut_piece (piece : Piece) {rest : List Char} (fits : piece.Fits rest)
    (plain : piece.isBracket = false) : Cut [piece] (piece.text ++ rest) rest :=
  ⟨by simp, ⟨by simpa using fits, trivial⟩, .cons plain .nil, .singleton piece⟩

/-- A piece with which no expression begins may meet any other. -/
theorem mayMeet_of_begins {first second : Piece} (neutral : second.begins = false) :
    first.MayMeet second := fun both => Bool.false_ne_true (neutral.symm.trans both.2)

/-- A piece with which no expression ends may meet any other. -/
theorem mayMeet_of_ends {first second : Piece} (neutral : first.ends = false) :
    first.MayMeet second := fun both => Bool.false_ne_true (neutral.symm.trans both.1)

/-- The blanks at the front of a text. -/
def gap (text : List Char) : List Piece := (text.takeWhile isBlank).map .blank

/-- A piece of a gap is a blank. -/
theorem exists_blank_of_mem_gap {text : List Char} {piece : Piece} (mem : piece ∈ gap text) :
    ∃ c, piece = .blank c := by
  obtain ⟨c, -, rfl⟩ := List.mem_map.1 mem
  exact ⟨c, rfl⟩

/-- The blanks at the front of a text are cut off. -/
theorem cut_gap (text : List Char) : Cut (gap text) text (skipBlanks text) := by
  induction text with
  | nil => exact cut_nil []
  | cons c rest ih =>
    by_cases blank : isBlank c = true
    · have step : gap (c :: rest) = [.blank c] ++ gap rest := by
        rw [gap, List.takeWhile_cons, if_pos blank]
        rfl
      rw [step, skipBlanks, List.dropWhile_cons, if_pos blank]
      refine (cut_piece (.blank c) blank rfl).append ih fun one last other _ => ?_
      obtain rfl := Option.some.inj last
      exact mayMeet_of_ends rfl
    · rw [gap, skipBlanks, List.takeWhile_cons, List.dropWhile_cons, if_neg blank, if_neg blank]
      exact cut_nil (c :: rest)

/-- A cut of what is left after blanks is one of the text with the blanks. -/
theorem Cut.skip {pieces : List Piece} {text rest : List Char}
    (cut : Cut pieces (skipBlanks text) rest) : Cut (gap text ++ pieces) text rest := by
  refine (cut_gap text).append cut fun one last other _ => ?_
  obtain ⟨c, rfl⟩ := exists_blank_of_mem_gap (List.mem_of_getLast? last)
  exact mayMeet_of_ends rfl

/-- Pieces in a bracket, up to the character that closes it, are cut off with the bracket. -/
theorem Cut.group {pieces : List Piece} {text rest : List Char} (bracket : Bracket)
    (cut : Cut pieces text (bracket.closing :: rest)) :
    Cut (.opening bracket :: (pieces ++ [.closing bracket])) (bracket.opening :: text) rest where
  joined := by
    rw [cut.joined]
    simp [Piece.text]
  fitting := by
    refine ⟨trivial, fitting_append.2 ⟨?_, trivial, trivial⟩⟩
    simpa [Piece.text] using cut.fitting
  nested := .group bracket cut.nested .nil
  apart := by
    have closed : SetApart (pieces ++ [.closing bracket]) := by
      refine List.isChain_append.2 ⟨cut.apart, .singleton _, fun one _ other first => ?_⟩
      obtain rfl := Option.some.inj first
      exact mayMeet_of_begins rfl
    exact List.isChain_cons.2 ⟨fun other _ => mayMeet_of_ends rfl, closed⟩

/-- No piece but a phrase stands for an atom or mentions an option, so gaps do not. -/
theorem flatMap_gap {β : Type} {content : Piece → List β} (none : ∀ c, content (.blank c) = [])
    (text : List Char) : (gap text).flatMap content = [] := by
  refine List.flatMap_eq_nil_iff.2 fun piece mem => ?_
  obtain ⟨c, rfl⟩ := exists_blank_of_mem_gap mem
  exact none c

end Synopsis.Usage

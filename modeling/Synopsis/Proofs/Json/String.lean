import Mathlib.Data.List.Forall2
import Synopsis.Json.Token
import Synopsis.Json.Value

/-!
# Strings as they are written

A string is cut out of a text just as it was written, whatever characters it holds. Control
characters are the only ones written by their code, so no surrogates are.
-/
namespace Synopsis.Json

/-- Whether a piece is one in which a character is written. -/
def Piece.Writes (piece : Piece) (c : Char) : Prop :=
  piece = .char c ∨ piece = .unit c.toNat ∧ c.toNat < 0x20

/-- Four digits give back the code of a control character. -/
theorem unit?_hexDigit {value : Nat} (control : value < 0x20) :
    unit? '0' '0' (hexDigit (value / 16)) (hexDigit (value % 16)) = some value := by
  revert value
  decide

/-- What is left of a text after a piece is read on. -/
theorem pieces?_unit {a b c d : Char} {value : Nat} (coded : unit? a b c d = some value)
    (text : List Char) :
    pieces? ('\\' :: 'u' :: a :: b :: c :: d :: text) =
      (pieces? text).map fun read => (.unit value :: read.1, read.2) := by
  rw [pieces?, coded]
  cases pieces? text <;> rfl

/-- A letter after a backslash is read as the character that it stands for. -/
theorem pieces?_escaped {letter c : Char} (named : escaped? letter = some c) (text : List Char) :
    pieces? ('\\' :: letter :: text) =
      (pieces? text).map fun read => (.char c :: read.1, read.2) := by
  have other : letter ≠ 'u' := by
    rintro rfl
    contradiction
  rw [pieces?, named]
  · cases pieces? text <;> rfl
  · intro a b c d rest same
    exact absurd same other

/-- A character that need not be escaped is read as itself. -/
theorem pieces?_plain {c : Char} (noQuote : c ≠ '"') (noBackslash : c ≠ '\\')
    (noControl : ¬ c.toNat < 0x20) (text : List Char) :
    pieces? (c :: text) = (pieces? text).map fun read => (.char c :: read.1, read.2) := by
  have plain : ¬(c = '\\' ∨ c.toNat < 0x20) := not_or.2 ⟨noBackslash, noControl⟩
  rw [pieces?, if_neg plain]
  · cases pieces? text <;> rfl
  · exact noQuote
  · rintro a b d e rest rfl
    exact absurd rfl noBackslash
  · rintro letter rest rfl
    exact absurd rfl noBackslash

/-- A written character is read as one piece. -/
theorem exists_piece_writeChar (c : Char) : ∃ piece : Piece, piece.Writes c ∧ ∀ text : List Char,
    pieces? (writeChar c ++ text) =
      (pieces? text).map fun read => (piece :: read.1, read.2) := by
  unfold writeChar
  iterate 7
    split
    · next same => exact ⟨.char c, .inl rfl, pieces?_escaped (by rw [same]; rfl)⟩
  split
  · next control =>
    exact ⟨.unit c.toNat, .inr ⟨rfl, control⟩, pieces?_unit (unit?_hexDigit control)⟩
  · next noQuote noBackslash _ _ _ _ _ noControl =>
    exact ⟨.char c, .inl rfl, pieces?_plain noQuote noBackslash noControl⟩

/-- A piece in which a character is written stands for that character before any others. -/
theorem content?_cons {piece : Piece} {c : Char} (writes : piece.Writes c) (later : List Piece) :
    content? (piece :: later) = (content? later).map (c :: ·) := by
  rcases writes with rfl | ⟨rfl, control⟩
  · rw [content?]
  · have noHigh : isHighHalf c.toNat = false := by
      rw [isHighHalf, decide_eq_false (by omega), Bool.false_and]
    have noLow : isLowHalf c.toNat = false := by
      rw [isLowHalf, decide_eq_false (by omega), Bool.false_and]
    match later with
    | [] => simp only [content?, noHigh, noLow, Char.ofNat_toNat, Bool.or_false, if_false,
        Bool.false_eq_true]
    | .char d :: rest => simp only [content?, noHigh, noLow, Char.ofNat_toNat, Bool.or_false,
        if_false, Bool.false_eq_true]
    | .unit value :: rest =>
      rw [content?, noHigh, noLow, Char.ofNat_toNat]
      rfl

/-- The pieces in which characters are written stand for these characters. -/
theorem content?_of_writes {pieces : List Piece} {content : List Char}
    (writes : List.Forall₂ Piece.Writes pieces content) : content? pieces = some content := by
  induction writes with
  | nil => rfl
  | cons one more ih => rw [content?_cons one, ih, Option.map_some]

/-- What is written of a string after its opening quote is read as its pieces. -/
theorem exists_pieces_write (content rest : List Char) :
    ∃ pieces : List Piece, List.Forall₂ Piece.Writes pieces content ∧
      pieces? (content.flatMap writeChar ++ '"' :: rest) = some (pieces, rest) := by
  induction content with
  | nil => exact ⟨[], .nil, by rw [List.flatMap_nil, List.nil_append, pieces?]⟩
  | cons c later ih =>
    obtain ⟨pieces, writes, read⟩ := ih
    obtain ⟨piece, one, first⟩ := exists_piece_writeChar c
    refine ⟨piece :: pieces, .cons one writes, ?_⟩
    rw [List.flatMap_cons, List.append_assoc, first, read, Option.map_some]

/-- A written string is cut off the front of a text as a token with its content. -/
theorem front?_writeString (content rest : List Char) :
    Token.front? (writeString content ++ rest) = some (.string (some content), rest) := by
  obtain ⟨pieces, writes, read⟩ := exists_pieces_write content rest
  have text : writeString content ++ rest = '"' :: (content.flatMap writeChar ++ '"' :: rest) := by
    rw [writeString, List.cons_append, List.cons_append, List.append_assoc, List.singleton_append]
  rw [text, Token.front?, read]
  simp only [content?_of_writes writes]

end Synopsis.Json

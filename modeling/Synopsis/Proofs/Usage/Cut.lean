import Synopsis.Proofs.Catalog.Listing
import Synopsis.Proofs.Text.Feed
import Synopsis.Proofs.Usage.Accepted
import Synopsis.Proofs.Usage.Piece

/-!
# Accepted usage lines are cut into pieces

An accepted usage line is the name of the program, with blanks before it, and what follows the name
is cut into pieces. The pattern that is read of the line has exactly the atoms of the pieces, in
order. The cut follows the readers: each of them adds the pieces of what it skips and passes on
those of the expressions in it.
-/
namespace Synopsis.Usage

open Text

/-- Pieces stand for the atoms of some fragments and mention the options mentioned in them, all in
the same order. -/
structure Shows (pieces : List Piece) (fragments : List Fragment) : Prop where
  /-- The atoms are the leaves of the patterns. -/
  atoms : fragments.flatMap (fun fragment => fragment.pattern.leaves) =
    pieces.flatMap Piece.atoms
  /-- The mentions are kept. -/
  mentions : fragments.flatMap Fragment.mentions = pieces.flatMap Piece.mentions

/-- No expression begins with the first piece. -/
def Detached (pieces : List Piece) : Prop := ∀ piece ∈ pieces.head?, piece.begins = false

/-- The text up to the rest is cut into pieces that stand for the fragments. -/
def Covers (fragments : List Fragment) (text rest : List Char) : Prop :=
  ∃ pieces, Cut pieces text rest ∧ Shows pieces fragments

/-- The text up to the rest is cut in such a way that it may follow an expression. -/
def Continues (fragments : List Fragment) (text rest : List Char) : Prop :=
  ∃ pieces, Cut pieces text rest ∧ Shows pieces fragments ∧ Detached pieces

/-- The text of an expression is cut into pieces that stand for it. -/
abbrev covered : Extent := fun fragment => Covers [fragment]

/-- Pieces one after the other stand for the fragments of both. -/
theorem Shows.append {front back : List Piece} {first second : List Fragment}
    (one : Shows front first) (other : Shows back second) :
    Shows (front ++ back) (first ++ second) where
  atoms := by simp only [List.flatMap_append, one.atoms, other.atoms]
  mentions := by simp only [List.flatMap_append, one.mentions, other.mentions]

/-- A gap stands for nothing. -/
theorem shows_gap (text : List Char) : Shows (gap text) [] :=
  ⟨(flatMap_gap (fun _ => rfl) text).symm, (flatMap_gap (fun _ => rfl) text).symm⟩

/-- A sequence has the leaves and the mentions of its parts. -/
theorem Shows.sequence {pieces : List Piece} {parts : List Fragment} (shows : Shows pieces parts) :
    Shows pieces [.sequence parts] where
  atoms := by
    rw [← shows.atoms, List.flatMap_singleton, Fragment.sequence, Pattern.sequence,
      Pattern.leaves_collapse, Pattern.leaves, Pattern.leavesOf_eq, List.flatMap_map]
  mentions := by
    rw [← shows.mentions, List.flatMap_singleton, Fragment.sequence]

/-- A choice has the leaves and the mentions of its branches. -/
theorem Shows.choice {pieces : List Piece} {branches : List Fragment}
    (shows : Shows pieces branches) : Shows pieces [.choice branches] where
  atoms := by
    rw [← shows.atoms, List.flatMap_singleton, Fragment.choice, Pattern.choice,
      Pattern.leaves_collapse, Pattern.leaves, Pattern.leavesOf_eq, List.flatMap_map]
  mentions := by
    rw [← shows.mentions, List.flatMap_singleton, Fragment.choice]

/-- The blanks before a text belong to a cut of it. -/
theorem Covers.skip {fragments : List Fragment} {text rest : List Char}
    (covers : Covers fragments (skipBlanks text) rest) : Covers fragments text rest := by
  obtain ⟨pieces, cut, shows⟩ := covers
  exact ⟨gap text ++ pieces, cut.skip, (shows_gap text).append shows⟩

/-- Blanks keep a text apart from an expression before it. -/
theorem Continues.skip {fragments : List Fragment} {text rest : List Char}
    (continues : Continues fragments (skipBlanks text) rest) : Continues fragments text rest := by
  obtain ⟨pieces, cut, shows, detached⟩ := continues
  refine ⟨gap text ++ pieces, cut.skip, (shows_gap text).append shows, fun piece first => ?_⟩
  rw [List.head?_append, Option.mem_def, Option.or_eq_some_iff] at first
  rcases first with blank | ⟨-, next⟩
  · obtain ⟨c, rfl⟩ := exists_blank_of_mem_gap (List.mem_of_head? blank)
    rfl
  · exact detached piece next

/-- A cut also stands for other fragments with the same leaves and mentions. -/
theorem Covers.imp {fragments others : List Fragment} {text rest : List Char}
    (covers : Covers fragments text rest)
    (same : ∀ {pieces}, Shows pieces fragments → Shows pieces others) :
    Covers others text rest := by
  obtain ⟨pieces, cut, shows⟩ := covers
  exact ⟨pieces, cut, same shows⟩

/-- A text that may follow another one is covered with it. -/
theorem Covers.append {first second : List Fragment} {text middle rest : List Char}
    (one : Covers first text middle) (other : Continues second middle rest) :
    Covers (first ++ second) text rest := by
  obtain ⟨front, cutFront, showsFront⟩ := one
  obtain ⟨back, cutBack, showsBack, detached⟩ := other
  exact ⟨front ++ back, cutFront.append cutBack fun _ _ piece first =>
    mayMeet_of_begins (detached piece first), showsFront.append showsBack⟩

/-- A piece that is no bracket and stands for nothing, with which no expression begins or ends,
sets a text apart from what comes before. -/
theorem Covers.after {fragments : List Fragment} {text rest : List Char}
    (covers : Covers fragments text rest) (piece : Piece) (fits : piece.Fits text)
    (plain : piece.isBracket = false) (shows : Shows [piece] []) (begins : piece.begins = false)
    (ends : piece.ends = false) : Continues fragments (piece.text ++ text) rest := by
  obtain ⟨pieces, cut, rest⟩ := covers
  refine ⟨[piece] ++ pieces, (cut_piece piece fits plain).append cut fun one last other _ => ?_,
    shows.append rest, fun one first => ?_⟩
  · obtain rfl := Option.some.inj last
    exact mayMeet_of_ends ends
  · obtain rfl := Option.some.inj first
    exact begins

/-- Nothing continues a text where it is left as it is. -/
theorem continues_nil (text : List Char) : Continues [] text text :=
  ⟨[], cut_nil text, ⟨rfl, rfl⟩, fun piece first => absurd first (Option.not_mem_none piece)⟩

/-- The expressions after the first one of a sequence continue the text. -/
theorem continues_of_spaced {fragments : List Fragment} {text last : List Char}
    (spaced : Spaced covered fragments text last) : Continues fragments text last := by
  induction spaced with
  | none text => exact continues_nil text
  | @next text gap rest last first later blank one more ih =>
    cases text with
    | nil => contradiction
    | cons c text =>
      rw [blanks?] at blank
      split at blank
      · next isBlank =>
        obtain rfl := Option.some.inj blank
        exact (one.append ih).skip.after (.blank c) isBlank rfl ⟨rfl, rfl⟩ rfl rfl
      · contradiction

/-- A sequence is covered, the blanks before it included. -/
theorem covers_of_inOrder {parts : List Fragment} {text last : List Char}
    (ordered : InOrder covered parts text last) : Covers parts text last := by
  cases ordered with
  | none text => exact ⟨[], cut_nil text, ⟨rfl, rfl⟩⟩
  | some one more => exact (Covers.skip one).append (continues_of_spaced more)

/-- The branches after the first one continue the text. -/
theorem continues_of_barred {branches : List Fragment} {text last : List Char}
    (barred : Barred covered branches text last) : Continues branches text last := by
  induction barred with
  | none text => exact continues_nil text
  | next bar one more ih =>
    have branch := (covers_of_inOrder one).imp Shows.sequence
    have after := (branch.append ih).after .bar trivial rfl ⟨rfl, rfl⟩ rfl rfl
    exact Continues.skip (bar ▸ after)

/-- Alternatives are covered. -/
theorem covers_of_branched {fragment : Fragment} {text last : List Char}
    (branched : Branched covered fragment text last) : Covers [fragment] text last := by
  cases branched with
  | choice one more =>
    have branch := (covers_of_inOrder one).imp Shows.sequence
    exact (branch.append (continues_of_barred more)).imp Shows.choice

/-- What is in a bracket is covered with the bracket. -/
theorem Covers.group {fragments : List Fragment} {text rest last : List Char} (bracket : Bracket)
    (covers : Covers fragments text rest) (closed : skipBlanks rest = bracket.closing :: last) :
    Covers fragments (bracket.opening :: text) last := by
  have stop : Continues [] rest (bracket.closing :: last) :=
    Continues.skip (closed ▸ continues_nil _)
  obtain ⟨pieces, cut, shows⟩ := covers.append stop
  rw [List.append_nil] at shows
  have opened : Shows [.opening bracket] [] := ⟨rfl, rfl⟩
  have closes : Shows [.closing bracket] [] := ⟨rfl, rfl⟩
  have around := opened.append (shows.append closes)
  rw [List.nil_append, List.append_nil] at around
  exact ⟨_, cut.group bracket, around⟩

/-- An expression before any ellipsis is covered. -/
theorem covers_of_unit {fragment : Fragment} {text last : List Char}
    (one : Unit covered fragment text last) : Covers [fragment] text last := by
  cases one with
  | simple read =>
    obtain ⟨phrase, rfl, fits, leaves, mentions⟩ := phrase_of_simple? read
    refine ⟨[.phrase phrase], cut_piece (.phrase phrase) fits rfl, ?_, ?_⟩
    · rw [List.flatMap_singleton, List.flatMap_singleton, leaves, Piece.atoms]
    · rw [List.flatMap_singleton, List.flatMap_singleton, mentions, Piece.mentions]
  | square inside closed =>
    exact ((covers_of_branched inside).group .square closed).imp fun shows =>
      ⟨shows.atoms, shows.mentions⟩
  | round inside closed => exact (covers_of_branched inside).group .round closed

/-- An expression with the ellipsis after it is covered. -/
theorem covers_of_expressed {fragment : Fragment} {text last : List Char}
    (expressed : Expressed covered fragment text last) : Covers [fragment] text last := by
  cases expressed with
  | once one => exact covers_of_unit one
  | @often text rest last fragment one dots =>
    have ellipsis : Continues [] ('.' :: '.' :: '.' :: last) last :=
      ⟨[.dots], cut_piece .dots trivial rfl, ⟨rfl, rfl⟩, fun piece first => by
        obtain rfl := Option.some.inj first
        rfl⟩
    exact ((covers_of_unit one).append (Continues.skip (dots ▸ ellipsis))).imp fun shows =>
      ⟨shows.atoms, shows.mentions⟩

/-- A text is at the end of a line where a line stops. -/
theorem atLineEnd_iff {text : List Char} : atLineEnd text = true ↔ Stops text := by
  cases text with
  | nil => exact ⟨fun _ => .nil, fun _ => rfl⟩
  | cons c rest =>
    rw [atLineEnd, Bool.or_eq_true, decide_eq_true_eq, decide_eq_true_eq]
    constructor
    · rintro (rfl | rfl)
      · exact .feed rest
      · exact .carriage rest
    · intro stops
      cases stops with
      | feed => exact .inl rfl
      | carriage => exact .inr rfl

/-- What follows the name of the program in an accepted usage line is covered up to the end of the
line. -/
theorem covers_of_usageLine {line rest : List Char} {fragment : Fragment}
    (read : usageLine line = .ok (fragment, rest)) :
    Covers [fragment] (skipProgram line) rest ∧ Stops rest := by
  obtain ⟨left, branched, rfl, ended⟩ := usageLine_accepts covers_of_expressed read
  have covers := (covers_of_branched branched).append (Continues.skip (continues_nil _))
  exact ⟨covers, atLineEnd_iff.1 ended⟩

/-- A line is cut into blanks, the name of the program, and pieces up to the end of the line. The
name is all that comes next without white space in it, which may be nothing. -/
structure LineCut (line blanks program : List Char) (pieces : List Piece) (rest : List Char) :
    Prop where
  /-- The parts and the rest are the line. -/
  joined : line = blanks ++ (program ++ (pieces.flatMap Piece.text ++ rest))
  /-- Only spaces and tabs come before the name. -/
  blank : ∀ c ∈ blanks, c = ' ' ∨ c = '\t'
  /-- The name, or what follows where there is none, begins with no blank. -/
  begins : Ends isBlank (program ++ (pieces.flatMap Piece.text ++ rest))
  /-- There is no white space in the name. -/
  unspaced : ∀ c ∈ program, isWhite c = false
  /-- The name goes on up to white space or to the end. -/
  whole : Ends (fun c => !isWhite c) (pieces.flatMap Piece.text ++ rest)
  /-- The line stops where the rest begins. -/
  stops : Stops rest
  /-- No piece could be longer, and no placeholder is left out. -/
  fitting : Fitting rest pieces
  /-- Brackets are nested. -/
  nested : Nested pieces
  /-- Expressions do not touch. -/
  apart : SetApart pieces

/-- Where the pieces of a line begin does not depend on the cut. -/
theorem LineCut.follows {line blanks program rest : List Char} {pieces : List Piece}
    (cut : LineCut line blanks program pieces rest) :
    skipProgram line = pieces.flatMap Piece.text ++ rest := by
  have blank : ∀ c ∈ blanks, isBlank c = true := fun c mem => by
    rcases cut.blank c mem with rfl | rfl <;> rfl
  have named : ∀ c ∈ program, (!isWhite c) = true := fun c mem => by
    rw [cut.unspaced c mem]
    rfl
  rw [skipProgram, cut.joined, skipBlanks, dropWhile_word blank cut.begins,
    dropWhile_word named cut.whole]

/-- An accepted usage line is cut into pieces that stand for what is read. -/
theorem lineCut_of_usageLine {line rest : List Char} {fragment : Fragment}
    (read : usageLine line = .ok (fragment, rest)) :
    ∃ blanks program pieces, LineCut line blanks program pieces rest ∧
      Shows pieces [fragment] := by
  obtain ⟨⟨pieces, cut, shows⟩, stops⟩ := covers_of_usageLine read
  have follows := cut.joined
  have named : (skipBlanks line).takeWhile (fun c => !isWhite c) ++
      (pieces.flatMap Piece.text ++ rest) = skipBlanks line := by
    rw [← follows]
    exact List.takeWhile_append_dropWhile
  have joined : line.takeWhile isBlank ++ skipBlanks line = line :=
    List.takeWhile_append_dropWhile
  refine ⟨line.takeWhile isBlank, (skipBlanks line).takeWhile fun c => !isWhite c, pieces,
    ⟨?_, fun c mem => ?_, ?_, fun c mem => ?_, ?_, stops, cut.fitting, cut.nested, cut.apart⟩,
    shows⟩
  · rw [named, joined]
  · simpa [isBlank] using List.all_eq_true.1 List.all_takeWhile c mem
  · rw [named]
    exact ends_dropWhile isBlank line
  · simpa using List.all_eq_true.1 List.all_takeWhile c mem
  · rw [← follows]
    exact ends_dropWhile _ _

/-- The options that pieces mention are those among their atoms. -/
theorem option_mentions_flatMap (pieces : List Piece) :
    (pieces.flatMap Piece.mentions).map Mention.option =
      (pieces.flatMap Piece.atoms).filter Atom.isOption := by
  rw [List.map_flatMap, List.filter_flatMap]
  refine List.flatMap_congr fun piece _ => ?_
  cases piece with
  | phrase words => exact words.option_mentions
  | _ => rfl

/-- A catalog of the mentions in pieces has an entry for each option among the leaves that they
stand for, which says whether the option has a placeholder in some piece, and no other entry. -/
theorem Shows.find?_ofMentions {pieces : List Piece} {fragment : Fragment}
    (shows : Shows pieces [fragment]) (atom : Atom) :
    (Catalog.ofMentions fragment.mentions).find? atom =
      if atom.isOption = true ∧ atom ∈ fragment.pattern.leaves then
        some { Entry.blank with
          takesValue := decide (⟨atom, true⟩ ∈ pieces.flatMap Piece.mentions) }
      else none := by
  have leaves := shows.atoms
  have mentions := shows.mentions
  rw [List.flatMap_singleton] at leaves mentions
  have listed : atom ∈ fragment.mentions.map Mention.option ↔
      atom.isOption = true ∧ atom ∈ fragment.pattern.leaves := by
    rw [mentions, option_mentions_flatMap, leaves, List.mem_filter, and_comm]
  rw [Catalog.find?_ofMentions, if_congr listed rfl rfl, mentions]

/-- An accepted usage line is cut into blanks, the name of the program, and blanks, nested brackets,
bars, ellipses and phrases that go on as far as they can, up to the end of the line, and expressions
do not touch. The leaves of its pattern are the atoms of these pieces, in order. The catalog that
begins with the line has an entry for each option among them and no other, and a value follows the
option if a placeholder does in some piece. -/
theorem usageLine_pieces {line rest : List Char} {fragment : Fragment}
    (read : usageLine line = .ok (fragment, rest)) :
    ∃ (blanks program : List Char) (pieces : List Piece),
      LineCut line blanks program pieces rest ∧
      fragment.pattern.leaves = pieces.flatMap Piece.atoms ∧
      ∀ atom, (Catalog.ofMentions fragment.mentions).find? atom =
        if atom.isOption = true ∧ atom ∈ fragment.pattern.leaves then
          some { Entry.blank with
            takesValue := decide (⟨atom, true⟩ ∈ pieces.flatMap Piece.mentions) }
        else none := by
  obtain ⟨blanks, program, pieces, cut, shows⟩ := lineCut_of_usageLine read
  have leaves := shows.atoms
  rw [List.flatMap_singleton] at leaves
  exact ⟨blanks, program, pieces, cut, leaves, shows.find?_ofMentions⟩

/-- A line with nested brackets, a stack, a placeholder and an ellipsis. -/
theorem usageLine_pieces_nested :
    ∃ (blanks program : List Char) (pieces : List Piece),
      LineCut "  prog [-ab | (--out=FILE <x>...)] options\n".toList blanks program pieces ['\n'] ∧
      " [-ab | (--out=FILE <x>...)] options\n".toList = pieces.flatMap Piece.text ++ ['\n'] ∧
      [.short 'a', .short 'b', .long "out", .argument "x", .options] =
        pieces.flatMap Piece.atoms := by
  let fragment : Fragment :=
    ⟨.seq [
      .opt (.alt [.rep (.alt [.leaf (.short 'a'), .leaf (.short 'b')]),
        .seq [.leaf (.long "out"), .rep (.leaf (.argument "x"))]]),
      .rep (.leaf .options)],
    [⟨.short 'a', false⟩, ⟨.short 'b', false⟩, ⟨.long "out", true⟩]⟩
  have read : usageLine "  prog [-ab | (--out=FILE <x>...)] options\n".toList =
      .ok (fragment, ['\n']) := by decide +kernel
  obtain ⟨blanks, program, pieces, cut, leaves, -⟩ := usageLine_pieces read
  have after : skipProgram "  prog [-ab | (--out=FILE <x>...)] options\n".toList =
      " [-ab | (--out=FILE <x>...)] options\n".toList := by decide +kernel
  exact ⟨blanks, program, pieces, cut, after ▸ cut.follows, leaves⟩

end Synopsis.Usage

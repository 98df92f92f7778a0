import Synopsis.Manual
import Synopsis.Proofs.Usage.Canonical

/-!
# Manuals of canonical patterns

A manual whose only usage line is the spelling of a canonical pattern describes that pattern. The
spelling of a pattern is a faithful account of it, whatever the nesting of its groups.
-/
namespace Synopsis

open Text
open Usage (Block usageLine lineAlternatives skipProgram endsBlock ReadsBranch EndsAlternatives)
open Usage.Fragment (ofPattern)

/-- Nothing but a line feed ends the alternatives of a usage line. -/
theorem endsAlternatives_newline : EndsAlternatives ['\n'] :=
  ⟨⟨'\n', [], rfl, rfl⟩, fun rest bar => absurd (List.cons.inj bar).1 (by decide)⟩

/-- A usage line that spells a canonical pattern is read as the pattern. -/
theorem usageLine_spell {pattern : Pattern Atom} (canonical : pattern.Canonical) :
    usageLine ([' ', ' ', 'p', 'r', 'o', 'g', ' '] ++ pattern.spell ++ ['\n']) =
      .ok (ofPattern pattern, ['\n']) := by
  let text := [' '] ++ (pattern.spell ++ ['\n'])
  have program : skipProgram ([' ', ' ', 'p', 'r', 'o', 'g', ' '] ++ pattern.spell ++ ['\n']) =
      text := rfl
  have room : pattern.spell.length < text.length + 1 := by
    simp only [text, List.length_append]
    omega
  have read : ReadsBranch (text.length + 1) pattern := (Usage.readBack canonical).branch _ room
  have blank : ∀ c ∈ [' '], isBlank c = true := List.forall_mem_singleton.2 rfl
  have reads : ∀ branch ∈ [pattern], ReadsBranch (text.length + 1) branch :=
    List.forall_mem_singleton.2 read
  obtain ⟨left, alternatives, same⟩ :=
    Usage.alternatives_branches reads blank endsAlternatives_newline
  have line : lineAlternatives text = .ok (ofPattern pattern, left) := alternatives
  simp only [usageLine, program, line, same]
  rfl

/-- A block whose only line is on a line of its own holds what the line is read as. -/
theorem ofText_line {line : List Char} {usage : Usage.Fragment} (single : '\n' ∉ line)
    (goesOn : endsBlock (line ++ ['\n']) = false)
    (read : usageLine (line ++ ['\n']) = .ok (usage, ['\n'])) :
    Block.ofText (['U', 's', 'a', 'g', 'e', ':', '\n'] ++ (line ++ ['\n'])) =
      .ok ⟨[usage], []⟩ := by
  have header : Usage.afterHeader? (['U', 's', 'a', 'g', 'e', ':', '\n'] ++ (line ++ ['\n'])) =
      some ('\n' :: (line ++ ['\n'])) := rfl
  have lines : (lines ('\n' :: (line ++ ['\n']))).tail = [line ++ ['\n']] := by
    rw [Text.lines, if_pos rfl, List.tail_cons, lines_append single]
    rfl
  have block : Block.ofLines false [line ++ ['\n']] = .ok ⟨[usage], []⟩ := by
    simp only [Block.ofLines, goesOn, Usage.turn, read]
    rfl
  have after : Block.afterHeader ('\n' :: (line ++ ['\n'])) = .ok ⟨[usage], []⟩ := by
    rw [Block.afterHeader, if_pos (by rfl), lines, block]
  simp only [Block.ofText, header, after]
  rfl

/-- Reading the spelling of a canonical pattern gives the pattern. -/
theorem readPattern_spelling (pattern : Pattern Atom) (canonical : pattern.Canonical) :
    Manual.readPattern ("Usage:\n  prog " ++ pattern.spelling ++ "\n") = .ok pattern := by
  have text : ("Usage:\n  prog " ++ pattern.spelling ++ "\n").toList =
      ['U', 's', 'a', 'g', 'e', ':', '\n'] ++
        ([' ', ' ', 'p', 'r', 'o', 'g', ' '] ++ pattern.spell ++ ['\n']) := by
    have spelled : pattern.spelling.toList = pattern.spell := String.toList_ofList
    rw [String.toList_append, String.toList_append, spelled]
    rfl
  have single : '\n' ∉ [' ', ' ', 'p', 'r', 'o', 'g', ' '] ++ pattern.spell := by
    have spelled : '\n' ∉ pattern.spell :=
      Pattern.newline_not_mem_parenthesize (Pattern.newline_not_mem_spellInside canonical)
    simpa using spelled
  have goesOn :
      endsBlock ([' ', ' ', 'p', 'r', 'o', 'g', ' '] ++ pattern.spell ++ ['\n']) = false := rfl
  have block := ofText_line single goesOn (usageLine_spell canonical)
  rw [Manual.readPattern, text, block]
  rfl

/-- A pattern with every kind of group, two of which hold nothing. -/
def nestedPattern : Pattern Atom :=
  .seq
    [.opt (.alt [.leaf (.short 'v'), .seq [.leaf (.long "dry-run"), .leaf (.command "Go")]]),
      .rep (.seq [.leaf (.command "FILE"), .rep (.opt (.leaf (.long "n"))), .opt (.seq [])]),
      .alt [.seq [], .rep (.alt [.leaf (.argument "x_1"), .opt (.opt (.leaf (.short 'q')))])],
      .leaf (.short 'o'), .rep (.leaf (.command "stop"))]

/-- The groups of that pattern are told apart by the brackets in its spelling. -/
theorem readPattern_spelling_nested :
    nestedPattern.Canonical ∧
      Manual.readPattern ("Usage:\n  prog " ++ nestedPattern.spelling ++ "\n") =
        .ok nestedPattern :=
  ⟨by decide, readPattern_spelling nestedPattern (by decide)⟩

end Synopsis

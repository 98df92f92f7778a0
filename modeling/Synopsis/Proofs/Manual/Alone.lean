import Synopsis.Proofs.Catalog.Listing
import Synopsis.Proofs.Description.Alone
import Synopsis.Proofs.Manual.Lines
import Synopsis.Proofs.Manual.Records

/-!
# The same option in the usage and in a record

An option may be written in a usage line or at the beginning of a record. Written alone it is the
same option in both places: no placeholder is taken for one in a usage line and for something else
in a record, or the other way round.
-/
namespace Synopsis

open Text (skipBlanks lines)
open Usage (Plain Mention usageLine skipProgram below)

/-- An option that is mentioned once takes a value if it has a placeholder there. -/
theorem Catalog.find?_ofMentions_singleton (option : Atom) (valued : Bool) :
    (ofMentions [⟨option, valued⟩]).find? option = some { Entry.blank with takesValue := valued } := by
  rw [find?_ofMentions, List.map_singleton, if_pos List.mem_cons_self]
  have same : decide ((⟨option, true⟩ : Mention) ∈ [⟨option, valued⟩]) = valued := by
    cases valued <;> simp
  rw [same]

/-- The entry of a single spelling stands under this spelling only. -/
theorem Catalog.toList_describe_singleton (option : Atom) (valued : Bool) :
    (describe .empty (Description.entry [⟨option, valued⟩] none)).toList =
      [(option, ⟨.ofList [option], none, valued, false⟩)] := by
  rw [Description.entry, List.map_singleton, List.any_cons, List.any_nil, Bool.or_false]
  rfl

namespace Manual

/-- The usage block of a single line with a line feed has the usage of the line. -/
theorem exists_usage_of_ofText {line : List Char} {block : Usage.Block} (plain : Plain line)
    (read : Usage.Block.ofText ("Usage:\n".toList ++ (line ++ ['\n'])) = .ok block) :
    ∃ usage, usageLine line = .ok (usage, []) ∧ block = ⟨[usage], []⟩ := by
  have shape : "Usage:\n".toList ++ (line ++ ['\n']) = "Usage:".toList ++ below [line] ['\n'] := by
    simp [below]
  rw [shape, ofText_below (List.cons_ne_nil line []),
    Usage.Block.ofLines_below_cons plain [] (.inr ⟨[], rfl⟩)] at read
  cases own : usageLine line with
  | error fault =>
    rw [own] at read
    contradiction
  | ok found =>
    obtain ⟨usage, rest⟩ := found
    obtain rfl : rest = [] := Usage.rest_of_usageLine plain.feed plain.carriage own
    rw [own] at read
    exact ⟨usage, rfl, (Except.ok.inj read).symm⟩

/-- An option after the name of a program is a plain line. -/
theorem plain_program {written : List Char} (feed : '\n' ∉ written) (carriage : '\r' ∉ written) :
    Plain ("  p ".toList ++ written) where
  feed := List.not_mem_append (by decide) feed
  carriage := List.not_mem_append (by decide) carriage
  counts := rfl

/-- A line that is the only one below a bare usage line and begins a record describes its entry and
nothing else. -/
theorem readCatalog_alone {written : String} {left : List Char} {mention : Mention}
    (hyphen : written.toList.head? = some '-') (feed : '\n' ∉ written.toList)
    (read : Description.spelling? written.toList = some (mention, left))
    (blank : skipBlanks left = []) :
    readCatalog ("Usage:\n  p\n\n" ++ written ++ "\n") =
      .ok (Catalog.describe .empty (Description.entry [mention] none)) := by
  have closed : "Usage:\n  p\n\n".toList.getLast? = some '\n' := by decide +kernel
  have bare : readCatalog "Usage:\n  p\n\n" = .ok .empty := by decide +kernel
  have line : (written ++ "\n").toList = written.toList ++ ['\n'] := String.toList_append
  have single : lines (written.toList ++ ['\n']) = [written.toList ++ ['\n']] :=
    Text.lines_append feed []
  have opens : ∃ line ∈ (lines (written ++ "\n").toList).head?,
      Description.isDashLine line = true := by
    rw [line, single]
    exact ⟨_, rfl, Description.isDashLine_of_hyphen hyphen⟩
  rw [String.append_assoc, readCatalog_with closed opens bare, line,
    Description.ofLines_alone feed hyphen read blank]
  rfl

/-- A usage line that describes just one atom and is written with a hyphen holds a spelling of it and
then blanks, and nothing else is mentioned. -/
theorem exists_spelling_of_readPattern {written : String} {option : Atom}
    (hyphen : written.toList.head? = some '-') (feed : '\n' ∉ written.toList)
    (carriage : '\r' ∉ written.toList)
    (read : readPattern ("Usage:\n  p " ++ written ++ "\n") = .ok (.leaf option)) :
    ∃ valued left, Description.spelling? written.toList = some (⟨option, valued⟩, left) ∧
      skipBlanks left = [] ∧
      readCatalog ("Usage:\n  p " ++ written ++ "\n") =
        .ok (.ofMentions [⟨option, valued⟩]) := by
  have text : ("Usage:\n  p " ++ written ++ "\n").toList =
      "Usage:\n".toList ++ ("  p ".toList ++ written.toList ++ ['\n']) := by
    rw [String.toList_append, String.toList_append]
    rfl
  obtain ⟨block, found, leaf⟩ := readPattern_eq_ok.1 read
  obtain ⟨usage, one, rfl⟩ := exists_usage_of_ofText (plain_program feed carriage) (text ▸ found)
  have whole : Usage.Block.fragment ⟨[usage], []⟩ = usage := Usage.Fragment.choice_singleton usage
  rw [whole] at leaf
  -- the name of the program ends at the space, and the option is read after it
  have after : skipBlanks (skipProgram ("  p ".toList ++ written.toList)) = written.toList := by
    obtain ⟨more, same⟩ := List.head?_eq_some_iff.1 hyphen
    rw [same]
    rfl
  have begins : (skipBlanks (skipProgram ("  p ".toList ++ written.toList))).head? = some '-' := by
    rw [after]
    exact hyphen
  obtain ⟨left, simple, blank⟩ := Usage.simple?_of_usageLine one leaf begins
  rw [after] at simple
  obtain ⟨valued, spelled, mentions⟩ := Description.spelling?_of_simple? simple leaf hyphen
  have described : parts ("Usage:\n  p " ++ written ++ "\n").toList =
      .ok (.leaf option, Catalog.ofMentions [⟨option, valued⟩]) := by
    refine parts_eq_ok.2 ⟨_, [], found, rfl, ?_, ?_⟩
    · rw [whole, leaf]
    · rw [whole, mentions]
      rfl
  exact ⟨valued, left, spelled, blank, readCatalog_eq_ok_iff.2 ⟨_, described⟩⟩

/-- An option is read alike in a usage line and in a record. What begins with a hyphen, has no line
break in it, and is all of a usage line that describes just one atom, is a record of that atom: the
catalog of the record has one entry, the atom is its only synonym, there is no default value, and a
value follows if and only if one does in the usage line. -/
theorem readCatalog_option {written : String} {option : Atom}
    (hyphen : written.toList.head? = some '-') (feed : '\n' ∉ written.toList)
    (carriage : '\r' ∉ written.toList)
    (read : readPattern ("Usage:\n  p " ++ written ++ "\n") = .ok (.leaf option)) :
    ∃ mentioned entry described,
      readCatalog ("Usage:\n  p " ++ written ++ "\n") = .ok mentioned ∧
      mentioned.find? option = some entry ∧
      readCatalog ("Usage:\n  p\n\n" ++ written ++ "\n") = .ok described ∧
      described.toList = [(option, ⟨.ofList [option], none, entry.takesValue, false⟩)] := by
  obtain ⟨valued, left, spelled, blank, usage⟩ :=
    exists_spelling_of_readPattern hyphen feed carriage read
  have record := readCatalog_alone hyphen feed spelled blank
  have known := Catalog.find?_ofMentions_singleton option valued
  have only := Catalog.toList_describe_singleton option valued
  exact ⟨_, _, _, usage, known, record, only⟩

/-- A word of capitals after a letter is a placeholder in both places, and the blanks after it are
nothing in either. -/
theorem readCatalog_option_file :
    readPattern ("Usage:\n  p " ++ "-o FILE \t" ++ "\n") = .ok (.leaf (.short 'o')) ∧
      ∃ described, readCatalog ("Usage:\n  p\n\n" ++ "-o FILE \t" ++ "\n") = .ok described ∧
        described.toList =
          [(.short 'o', ⟨.ofList [.short 'o'], none, true, false⟩)] := by
  have pattern : readPattern ("Usage:\n  p " ++ "-o FILE \t" ++ "\n") =
      .ok (.leaf (.short 'o')) := by decide +kernel
  have usage : readCatalog ("Usage:\n  p " ++ "-o FILE \t" ++ "\n") =
      .ok (.ofMentions [⟨.short 'o', true⟩]) := by decide +kernel
  obtain ⟨mentioned, entry, described, read, known, record, only⟩ :=
    readCatalog_option (by decide +kernel) (by decide +kernel) (by decide +kernel) pattern
  obtain rfl := Except.ok.inj (usage.symm.trans read)
  rw [Catalog.find?_ofMentions_singleton] at known
  obtain rfl := Option.some.inj known
  exact ⟨pattern, described, record, only⟩

end Manual

end Synopsis

import Synopsis.Proofs.Stored.Written

/-!
# What stored values can be read as

Whatever the tokens are that an interface or a manual is read from, its atoms are well formed and
its pattern has no more levels than there was room for.
-/
namespace Synopsis.Stored

open Json Form

variable {α β : Type}

/-- The only field of a record gives what its value has. -/
theorem yields_lastField {make : α → β} {value : Form α} {holds : α → Prop} {keeps : β → Prop}
    (read : Yields value holds) (makes : ∀ found, holds found → keeps (make found)) :
    Yields (lastField make value) keeps := by
  intro tokens rest found done
  obtain ⟨⟨one, next⟩, given, done⟩ := bind_ok_iff.1 done
  obtain ⟨last, -, same⟩ := bind_ok_iff.1 done
  obtain ⟨rfl, -⟩ := ok_pair_inj same
  exact makes one (read given)

/-- Whether the leaves of a pattern are well formed and its levels fit. -/
def Fits (room : Nat) (pattern : Pattern Atom) : Prop :=
  (∀ atom ∈ pattern.leaves, atom.wellFormed = true) ∧ pattern.levels ≤ room

/-- Patterns that each fit make a sequence and a choice that fit with two levels more. -/
theorem fits_group {room : Nat} {patterns : List (Pattern Atom)}
    (each : ∀ child ∈ patterns, Fits room child) :
    Fits (room + 2) (.seq patterns) ∧ Fits (room + 2) (.alt patterns) := by
  have formed : ∀ atom ∈ Pattern.leavesOf patterns, atom.wellFormed = true := by
    intro atom leaf
    rw [Pattern.leavesOf_eq] at leaf
    obtain ⟨child, mem, below⟩ := List.mem_flatMap.1 leaf
    exact (each child mem).1 atom below
  have levels : 2 + Pattern.levelsOf patterns ≤ room + 2 := by
    have deepest := Pattern.levelsOf_le fun child mem => (each child mem).2
    omega
  exact ⟨⟨formed, levels⟩, formed, levels⟩

/-- A pattern that fits makes an optional and a repeated one that fit with one level more. -/
theorem fits_body {room : Nat} {body : Pattern Atom} (fits : Fits room body) :
    Fits (room + 1) (.opt body) ∧ Fits (room + 1) (.rep body) := by
  obtain ⟨formed, within⟩ := fits
  have levels : 1 + body.levels ≤ room + 1 := by omega
  exact ⟨⟨formed, levels⟩, formed, levels⟩

/-- Every pattern that is read fits the room that was given. -/
theorem yields_pattern (room : Nat) :
    Yields (Stored.pattern room) (Fits room) ∧
      Yields (Stored.patterns room) fun found =>
        ∃ less, room = less + 1 ∧ ∀ child ∈ found, Fits less child := by
  -- A pattern is read with a list of patterns one level below, and that with patterns below it.
  induction room with
  | zero => exact ⟨nofun, nofun⟩
  | succ room ih =>
    obtain ⟨one, many⟩ := ih
    refine ⟨?_, ?_⟩
    · intro tokens rest found done
      rw [Stored.pattern] at done
      dsimp only at done
      split at done
      · split at done
        · refine yields_lastField many (fun parts found => ?_) done
          obtain ⟨less, rfl, each⟩ := found
          exact (fits_group each).1
        split at done
        · refine yields_lastField many (fun branches found => ?_) done
          obtain ⟨less, rfl, each⟩ := found
          exact (fits_group each).2
        split at done
        · exact yields_lastField one (fun body fits => (fits_body fits).1) done
        split at done
        · exact yields_lastField one (fun body fits => (fits_body fits).2) done
        split at done
        · refine yields_lastField yields_atom (fun atom formed => ?_) done
          exact ⟨List.forall_mem_singleton.2 formed, Nat.le_add_left 1 room⟩
        · contradiction
      · contradiction
    · intro tokens rest found done
      exact ⟨room, rfl, yields_list one done⟩

/-- Every synonym that is read is well formed. -/
theorem yields_synonyms (room : Nat) :
    Yields (Stored.synonyms room) fun found => ∀ atom ∈ found, atom.wellFormed = true := by
  intro tokens rest found done
  cases room with
  | zero => contradiction
  | succ room =>
    obtain ⟨⟨atoms, last⟩, listed, same⟩ := bind_ok_iff.1 done
    obtain ⟨rfl, -⟩ := ok_pair_inj same
    exact fun atom mem => yields_list yields_atom listed atom (AtomSet.mem_ofList.1 mem)

/-- A field that must have been there was there. -/
theorem required_eq_ok {known : Option α} {found : α} :
    required known = .ok found ↔ known = some found := by
  cases known with
  | none => exact ⟨nofun, nofun⟩
  | some one => rw [required, Except.ok.injEq, Option.some.injEq]

/-- Every form yields what always holds. -/
theorem yields_any (form : Form α) : Yields form fun _ => True := fun _ => trivial

/-- The synonyms of an entry that is being read are well formed, once read. -/
def EntryDraft.Formed (draft : EntryDraft) : Prop :=
  ∀ found, draft.synonyms = some found → ∀ atom ∈ found, atom.wellFormed = true

/-- Every field that is read of an entry keeps its synonyms well formed. -/
theorem formed_entryField {room : Nat} {known : EntryDraft} {key : String}
    {form : Form EntryDraft} (formed : known.Formed)
    (named : EntryDraft.field room known key = .ok form) : Yields form EntryDraft.Formed := by
  unfold EntryDraft.field at named
  split at named
  · refine yields_once named (yields_synonyms room) fun found wellFormed other same => ?_
    exact Option.some.inj same ▸ wellFormed
  split at named
  · exact yields_once named (yields_any _) fun _ _ => formed
  split at named
  · exact yields_once named (yields_any _) fun _ _ => formed
  split at named
  · exact yields_once named (yields_any _) fun _ _ => formed
  · obtain rfl := Except.ok.inj named
    exact yields_ignored formed

/-- Every entry that is read lists well-formed atoms. -/
theorem yields_entry (room : Nat) :
    Yields (Stored.entry room) fun found => ∀ atom ∈ found.synonyms, atom.wellFormed = true := by
  intro tokens rest found done
  cases room with
  | zero => contradiction
  | succ room =>
    rw [Stored.entry] at done
    dsimp only at done
    split at done
    · obtain ⟨⟨draft, last⟩, filled, done⟩ := bind_ok_iff.1 done
      obtain ⟨entry, finished, same⟩ := bind_ok_iff.1 done
      obtain ⟨rfl, -⟩ := ok_pair_inj same
      have blank : EntryDraft.Formed ⟨none, none, none, none⟩ := fun found known => nomatch known
      have formed : draft.Formed := yields_record formed_entryField blank filled
      obtain ⟨synonyms, known, finished⟩ := bind_ok_iff.1 finished
      obtain ⟨takesValue, -, finished⟩ := bind_ok_iff.1 finished
      obtain ⟨repeatable, -, finished⟩ := bind_ok_iff.1 finished
      obtain rfl := Except.ok.inj finished
      exact formed synonyms (required_eq_ok.1 known)
    · obtain ⟨⟨synonyms, last⟩, listed, done⟩ := bind_ok_iff.1 done
      obtain ⟨afterComma, -, done⟩ := bind_ok_iff.1 done
      obtain ⟨⟨fallback, last⟩, -, done⟩ := bind_ok_iff.1 done
      obtain ⟨afterComma, -, done⟩ := bind_ok_iff.1 done
      obtain ⟨⟨takesValue, last⟩, -, done⟩ := bind_ok_iff.1 done
      obtain ⟨afterComma, -, done⟩ := bind_ok_iff.1 done
      obtain ⟨⟨repeatable, last⟩, -, done⟩ := bind_ok_iff.1 done
      obtain ⟨afterList, -, same⟩ := bind_ok_iff.1 done
      obtain ⟨rfl, -⟩ := ok_pair_inj same
      exact yields_synonyms room listed
    · contradiction

/-- Whether the keys and the synonyms of a catalog are well formed. -/
def FormedCatalog (catalog : Catalog) : Prop :=
  ∀ key entry, catalog.find? key = some entry →
    key.wellFormed = true ∧ ∀ synonym ∈ entry.synonyms, synonym.wellFormed = true

/-- Every entry that is read keeps a catalog well formed. -/
theorem formed_catalogField {room : Nat} {known : Catalog} {key : String} {form : Form Catalog}
    (formed : FormedCatalog known) (named : catalogField room known key = .ok form) :
    Yields form FormedCatalog := by
  unfold catalogField at named
  split at named
  · contradiction
  · next atom read =>
    obtain rfl := Except.ok.inj named
    intro tokens rest found done
    obtain ⟨⟨one, last⟩, given, same⟩ := bind_ok_iff.1 done
    obtain ⟨rfl, -⟩ := ok_pair_inj same
    intro other entry present
    rw [AtomMap.find?_insert] at present
    split at present
    · next here =>
      obtain rfl := Option.some.inj present
      exact ⟨here ▸ Atom.wellFormed_of_read read, yields_entry room given⟩
    · exact formed other entry present

/-- Every catalog that is read has well-formed keys and synonyms. -/
theorem yields_catalog (room : Nat) : Yields (Stored.catalog room) FormedCatalog := by
  intro tokens rest found done
  cases room with
  | zero => contradiction
  | succ room =>
    rw [Stored.catalog] at done
    dsimp only at done
    split at done
    · have empty : FormedCatalog .empty := fun key entry found => nomatch found
      exact yields_record formed_catalogField empty done
    · contradiction

/-- Whether what has been read of an interface is well formed and fits. -/
structure InterfaceDraft.Formed (room : Nat) (draft : InterfaceDraft) : Prop where
  /-- The pattern fits, once read. -/
  pattern : ∀ found, draft.pattern = some found → Fits room found
  /-- The catalog is well formed, once read. -/
  catalog : ∀ found, draft.catalog = some found → FormedCatalog found

/-- Every field that is read of an interface keeps it well formed. -/
theorem formed_interfaceField {room : Nat} {known : InterfaceDraft} {key : String}
    {form : Form InterfaceDraft} (formed : known.Formed room)
    (named : InterfaceDraft.field room known key = .ok form) :
    Yields form (InterfaceDraft.Formed room) := by
  unfold InterfaceDraft.field at named
  split at named
  · refine yields_once named (yields_pattern room).1 fun found fits => ⟨?_, formed.catalog⟩
    exact fun other same => Option.some.inj same ▸ fits
  split at named
  · refine yields_once named (yields_catalog room) fun found keys => ⟨formed.pattern, ?_⟩
    exact fun other same => Option.some.inj same ▸ keys
  · obtain rfl := Except.ok.inj named
    exact yields_ignored formed

/-- Whether the atoms of an interface are well formed and its levels fit. -/
def FormedInterface (room : Nat) (interface : Interface) : Prop :=
  Fits room interface.pattern ∧ FormedCatalog interface.catalog

/-- Every interface that is read is well formed and fits the room that was given. -/
theorem yields_interface (room : Nat) :
    Yields (Stored.interface room) fun found =>
      ∃ less, room = less + 1 ∧ FormedInterface less found := by
  intro tokens rest found done
  cases room with
  | zero => contradiction
  | succ room =>
    refine ⟨room, rfl, ?_⟩
    rw [Stored.interface] at done
    dsimp only at done
    split at done
    · obtain ⟨⟨draft, last⟩, filled, done⟩ := bind_ok_iff.1 done
      obtain ⟨interface, finished, same⟩ := bind_ok_iff.1 done
      obtain ⟨rfl, -⟩ := ok_pair_inj same
      have blank : InterfaceDraft.Formed room ⟨none, none⟩ :=
        ⟨fun found known => (nomatch known), fun found known => (nomatch known)⟩
      have formed : draft.Formed room := yields_record formed_interfaceField blank filled
      obtain ⟨pattern, pattern', finished⟩ := bind_ok_iff.1 finished
      obtain ⟨catalog, catalog', finished⟩ := bind_ok_iff.1 finished
      obtain rfl := Except.ok.inj finished
      exact ⟨formed.pattern pattern (required_eq_ok.1 pattern'),
        formed.catalog catalog (required_eq_ok.1 catalog')⟩
    · obtain ⟨⟨pattern, last⟩, first, done⟩ := bind_ok_iff.1 done
      obtain ⟨afterComma, -, done⟩ := bind_ok_iff.1 done
      obtain ⟨⟨catalog, last⟩, second, done⟩ := bind_ok_iff.1 done
      obtain ⟨afterList, -, same⟩ := bind_ok_iff.1 done
      obtain ⟨rfl, -⟩ := ok_pair_inj same
      exact ⟨(yields_pattern room).1 first, yields_catalog room second⟩
    · contradiction

/-- The interface of a manual that is being read is well formed and fits, once read. -/
def ManualDraft.Formed (room : Nat) (draft : ManualDraft) : Prop :=
  ∀ found, draft.interface = some found → ∃ less, room = less + 1 ∧ FormedInterface less found

/-- Every field that is read of a manual keeps its interface well formed. -/
theorem formed_manualField {room : Nat} {known : ManualDraft} {key : String}
    {form : Form ManualDraft} (formed : known.Formed room)
    (named : ManualDraft.field room known key = .ok form) :
    Yields form (ManualDraft.Formed room) := by
  unfold ManualDraft.field at named
  split at named
  · exact yields_once named (yields_any _) fun _ _ => formed
  split at named
  · refine yields_once named (yields_interface room) fun found fits other same => ?_
    exact Option.some.inj same ▸ fits
  · obtain rfl := Except.ok.inj named
    exact yields_ignored formed

/-- The interface of every manual that is read is well formed and fits the room that was given. -/
theorem yields_manual (room : Nat) :
    Yields (Stored.manual room) fun found =>
      ∃ less, room = less + 2 ∧ FormedInterface less found.interface := by
  intro tokens rest found done
  cases room with
  | zero => contradiction
  | succ room =>
    have fits : ∃ less, room = less + 1 ∧ FormedInterface less found.interface := by
      rw [Stored.manual] at done
      dsimp only at done
      split at done
      · obtain ⟨⟨draft, last⟩, filled, done⟩ := bind_ok_iff.1 done
        obtain ⟨manual, finished, same⟩ := bind_ok_iff.1 done
        obtain ⟨rfl, -⟩ := ok_pair_inj same
        have blank : ManualDraft.Formed room ⟨none, none⟩ := fun found known => nomatch known
        have formed : draft.Formed room := yields_record formed_manualField blank filled
        obtain ⟨text, -, finished⟩ := bind_ok_iff.1 finished
        obtain ⟨interface, known, finished⟩ := bind_ok_iff.1 finished
        obtain rfl := Except.ok.inj finished
        exact formed interface (required_eq_ok.1 known)
      · obtain ⟨⟨text, last⟩, -, done⟩ := bind_ok_iff.1 done
        obtain ⟨afterComma, -, done⟩ := bind_ok_iff.1 done
        obtain ⟨⟨interface, last⟩, second, done⟩ := bind_ok_iff.1 done
        obtain ⟨afterList, -, same⟩ := bind_ok_iff.1 done
        obtain ⟨rfl, -⟩ := ok_pair_inj same
        exact yields_interface room second
      · contradiction
    obtain ⟨less, rfl, formed⟩ := fits
    exact ⟨less, rfl, formed⟩

end Synopsis.Stored

import Synopsis.Proofs.Json.Written
import Synopsis.Proofs.Stored.Read

/-!
# Storing and reading back

What is stored as JSON is read back as it was exactly when its atoms are well formed and no more
brackets and braces are open at once than may be.
-/
namespace Synopsis

open Json

namespace Stored

/-- An interface is well formed and fits when its atoms are well formed and its levels fit. -/
theorem formedInterface_iff {room : Nat} {interface : Interface} :
    FormedInterface room interface ↔
      (∀ atom ∈ interface.atoms, atom.wellFormed = true) ∧ interface.pattern.levels ≤ room := by
  rw [Interface.forall_atoms, FormedInterface, Fits, FormedCatalog]
  simp only [Prod.forall, AtomMap.mem_toList_iff]
  exact and_right_comm

/-- The brackets and braces of a stored interface fit when the levels of its pattern do. -/
theorem nesting_ofInterface_le {interface : Interface} {room : Nat} (atLeast : 3 ≤ room) :
    (ofInterface interface).nesting ≤ room + 1 ↔ interface.pattern.levels ≤ room := by
  have catalog := nesting_ofCatalog_le interface.catalog
  rw [nesting_ofInterface]
  omega

end Stored

/-- An interface that is read of any JSON text is well formed and fits. -/
theorem Interface.formed_of_ofJson {text : String} {interface : Interface}
    (read : Interface.ofJson text = .ok interface) :
    Stored.FormedInterface (Stored.nestingLimit - 1) interface := by
  obtain ⟨less, room, formed⟩ := Form.holds_of_all (Stored.yields_interface _) read
  rw [room]
  exact formed

/-- A manual that is read of any JSON text has an interface that is well formed and fits. -/
theorem Manual.formed_of_ofJson {text : String} {manual : Manual}
    (read : Manual.ofJson text = .ok manual) :
    Stored.FormedInterface (Stored.nestingLimit - 2) manual.interface := by
  obtain ⟨less, room, formed⟩ := Form.holds_of_all (Stored.yields_manual _) read
  rw [room]
  exact formed

/-- An interface is read back from its JSON when it is well formed and fits. -/
theorem Interface.ofJson_toJson_eq_ok {interface : Interface} :
    Interface.ofJson interface.toJson = .ok interface ↔
      Stored.FormedInterface (Stored.nestingLimit - 1) interface := by
  refine ⟨Interface.formed_of_ofJson, fun formed => ?_⟩
  rw [Interface.ofJson, Interface.toJson, ofText_text blank_indented]
  obtain ⟨atoms, fits⟩ := Stored.formedInterface_iff.1 formed
  exact Form.all_of_takes (Stored.takes_interface atoms fits (by decide))

/-- A manual is read back from its JSON when its interface is well formed and fits. -/
theorem Manual.ofJson_toJson_eq_ok {manual : Manual} :
    Manual.ofJson manual.toJson = .ok manual ↔
      Stored.FormedInterface (Stored.nestingLimit - 2) manual.interface := by
  refine ⟨Manual.formed_of_ofJson, fun formed => ?_⟩
  rw [Manual.ofJson, Manual.toJson, ofText_text blank_compact]
  obtain ⟨atoms, fits⟩ := Stored.formedInterface_iff.1 formed
  exact Form.all_of_takes (Stored.takes_manual atoms fits (by decide))

/-- An interface, and likewise a manual, is read back from its JSON as it was exactly when all of
its atoms are well formed and no more brackets and braces of the JSON are open at once than may be.
The stored interface is one level deeper than its pattern and its catalog, in which a sequence or
choice takes two levels and any other node one, and the stored manual one deeper than that. -/
theorem ofJson_toJson_iff :
    (∀ interface : Interface, Interface.ofJson interface.toJson = .ok interface ↔
      (∀ atom ∈ interface.atoms, atom.wellFormed = true) ∧
        (Stored.ofInterface interface).nesting ≤ Stored.nestingLimit) ∧
    (∀ manual : Manual, Manual.ofJson manual.toJson = .ok manual ↔
      (∀ atom ∈ manual.interface.atoms, atom.wellFormed = true) ∧
        (Stored.ofManual manual).nesting ≤ Stored.nestingLimit) ∧
    (∀ interface : Interface, (Stored.ofInterface interface).nesting =
      1 + max interface.pattern.levels (Stored.ofCatalog interface.catalog).nesting) ∧
    ∀ manual : Manual, (Stored.ofManual manual).nesting =
      1 + (Stored.ofInterface manual.interface).nesting := by
  refine ⟨fun interface => ?_, fun manual => ?_, Stored.nesting_ofInterface,
    Stored.nesting_ofManual⟩
  · rw [Interface.ofJson_toJson_eq_ok, Stored.formedInterface_iff]
    exact and_congr_right fun _ => (Stored.nesting_ofInterface_le (by decide)).symm
  · have fits : (Stored.ofManual manual).nesting ≤ Stored.nestingLimit ↔
        manual.interface.pattern.levels ≤ Stored.nestingLimit - 2 := by
      have inner : (Stored.ofInterface manual.interface).nesting ≤ Stored.nestingLimit - 2 + 1 ↔
          manual.interface.pattern.levels ≤ Stored.nestingLimit - 2 :=
        Stored.nesting_ofInterface_le (by decide)
      rw [← inner, Stored.nesting_ofManual, Stored.nestingLimit]
      omega
    rw [Manual.ofJson_toJson_eq_ok, Stored.formedInterface_iff, fits]

/-- The spelling of an atom that is not well formed may be that of another atom. -/
example : Interface.ofJson (Interface.toJson ⟨.leaf (.command "--x"), .empty⟩) =
    .ok ⟨.leaf (.long "x"), .empty⟩ := by decide +kernel

end Synopsis

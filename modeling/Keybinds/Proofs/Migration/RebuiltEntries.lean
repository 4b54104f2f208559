import Keybinds.Proofs.Command.Recognition
import Keybinds.Proofs.Migration.Reports

/-!
# Rebuilt tray entries

An object without a command that describes a slot by parameters is rebuilt as one command
(`IsSlotEntry.isRebuilt`). Whatever else the object holds, the command is a chain of its own and is
read as the command for that slot, so that the rest of the object is not needed. A list of such
objects becomes the chain of their commands, and nothing in it is reported
(`slotEntries_rebuilt`).
-/

namespace Keybinds

open Json (Value)

/-! ## Spelled and read -/

namespace Command

theorem activeOfValue_eq (v : Value) : activeOfValue v = 0 ∨ activeOfValue v = 1 := by
  unfold activeOfValue
  split
  · split_ifs
    · exact Or.inr rfl
    · exact Or.inl rfl
  · split_ifs
    · exact Or.inl rfl
    · exact Or.inr rfl
  · split_ifs
    · exact Or.inl rfl
    · exact Or.inr rfl
  · exact activeOfText_eq _
  · exact Or.inr rfl

/-- The flag that an object holds is one bit. -/
theorem activeBit_ofFields {fields : Dict Value} {p : TrayParams}
    (h : TrayParams.ofFields fields = .ok p) : p.activeBit = p.active := by
  obtain ⟨backupTray, -, h⟩ := bind_eq_ok_iff.1 h
  obtain ⟨backupSlot, -, h⟩ := bind_eq_ok_iff.1 h
  obtain ⟨tray, -, h⟩ := bind_eq_ok_iff.1 h
  obtain ⟨slot, -, h⟩ := bind_eq_ok_iff.1 h
  obtain rfl := Except.ok.inj h
  refine TrayParams.activeBit_eq_active ?_
  show ((fields.get? "active").map activeOfValue).getD 1 = 0 ∨ _ = 1
  cases fields.get? "active" with
  | none => exact Or.inr rfl
  | some v => exact activeOfValue_eq v

/-- A spelled tray command is a chain of its own: it has blanks at no end, and no separator. -/
theorem isCanonical_spell (form : Form) (p : TrayParams) :
    Chain.isCanonical (p.spell form) = true := by
  have hdollar : '$' ∉ (p.spell form).toList := fun h =>
    absurd (List.all_eq_true.1 (all_spell form p) _ h) (by decide)
  obtain ⟨hne, htrimmed⟩ := trimmed_spell form p
  exact Chain.isCanonical_iff.2 ⟨hne, htrimmed,
    Chain.hasSeparator_eq_false_iff.1 (Chain.hasSeparator_eq_false_of_notMem hdollar)⟩

end Command

namespace Migration

open Command (Form Parameters Signature TrayParams)
open Stored (Commands Element IsTrayEntry richCommand)

/-! ## One object -/

/-- An object without a command whose parameters describe a slot. -/
def IsSlotEntry (fields : Dict Value) (p : TrayParams) : Prop :=
  ∃ parameters, IsTrayEntry fields parameters ∧ TrayParams.ofFields parameters = .ok p

/-- A command for a slot, as an object is rebuilt. -/
structure IsRebuilt (p : TrayParams) (command : String) : Prop where
  spelled : Command.spell .implicit .tray (some p.id) (.tray p) = .ok command
  isCanonical : Chain.isCanonical command = true
  alone : Chain.split command = [command]
  signature : Signature.ofCommand command = ⟨.tray, some p.id, .tray p⟩

theorem IsSlotEntry.isRebuilt {fields : Dict Value} {p : TrayParams} (h : IsSlotEntry fields p) :
    ∃ command, richCommand fields = .ok command ∧ IsRebuilt p command := by
  obtain ⟨parameters, hentry, hp⟩ := h
  have hcanonical := Command.isCanonical_spell .implicit p
  refine ⟨p.spell .implicit, ?_, Command.spell_trayCommand .implicit p, hcanonical,
    Chain.split_of_isCanonical hcanonical, ?_⟩
  · rw [hentry.richCommand_eq, hp]
    rfl
  · rw [Command.ofCommand_trayCommand, Command.activeBit_ofFields hp]

/-! ## Lists of objects -/

section Lists

variable {entries : List (Dict Value)} {chain : List String}
  (h : List.Forall₂ (fun fields command => richCommand fields = .ok command) entries chain)

include h

theorem commands_rich :
    (Commands.list (entries.map .rich)).commands = chain.flatMap Chain.split := by
  show (entries.map Element.rich).flatMap Element.commands = _
  rw [List.flatMap_map]
  induction h with
  | nil => rfl
  | cons hrich _ ih =>
    rw [List.flatMap_cons, List.flatMap_cons, ih]
    simp only [Element.commands, hrich]

/-- Objects with a command are not reported. -/
theorem commandsEvents_rich (location : String) :
    commandsEvents location (.list (entries.map .rich)) = [] := by
  have hrich : ∀ fields ∈ entries, ∃ command, richCommand fields = .ok command :=
    forall_of_forall₂ (R := fun command fields => richCommand fields = .ok command) h.flip
      fun command _ hcommand => ⟨command, hcommand⟩
  refine commandsEvents_list_eq_nil (fun e he place => ?_) location
  obtain ⟨fields, hfields, rfl⟩ := List.mem_map.1 he
  obtain ⟨command, hcommand⟩ := hrich fields hfields
  simp only [elementEvents, hcommand]

end Lists

/-- Objects for slots are rebuilt one by one, in order. -/
theorem exists_chain {entries : List (Dict Value)} {slots : List TrayParams}
    (h : List.Forall₂ IsSlotEntry entries slots) :
    ∃ chain, List.Forall₂ (fun fields command => richCommand fields = .ok command) entries chain ∧
      List.Forall₂ IsRebuilt slots chain := by
  induction h with
  | nil => exact ⟨[], .nil, .nil⟩
  | cons hentry _ ih =>
    obtain ⟨command, hrich, hrebuilt⟩ := hentry.isRebuilt
    obtain ⟨chain, hrichs, hrebuilts⟩ := ih
    exact ⟨command :: chain, .cons hrich hrichs, .cons hrebuilt hrebuilts⟩

/-- An object for a slot gives the command for that slot, and a list of such objects gives one
command for each, in order and without a report. -/
theorem slotEntries_rebuilt :
    (∀ fields p, IsSlotEntry fields p →
      ∃ command, richCommand fields = .ok command ∧ IsRebuilt p command) ∧
    ∀ entries slots, List.Forall₂ IsSlotEntry entries slots →
      ∃ chain, entries.mapM richCommand = .ok chain ∧ List.Forall₂ IsRebuilt slots chain ∧
        (Commands.list (entries.map .rich)).canonicalized = .ofChain chain ∧
        ∀ location, commandsEvents location (.list (entries.map .rich)) = [] := by
  refine ⟨fun fields p h => h.isRebuilt, fun entries slots h => ?_⟩
  obtain ⟨chain, hrich, hrebuilt⟩ := exists_chain h
  have hcanonical : ∀ command ∈ chain, Chain.isCanonical command = true :=
    forall_of_forall₂ hrebuilt fun _ _ => IsRebuilt.isCanonical
  refine ⟨chain, mapM_eq_ok_iff.2 hrich, hrebuilt, ?_, commandsEvents_rich hrich⟩
  rw [Commands.canonicalized_eq_ofChain, commands_rich hrich,
    Chain.flatMap_split_of_isCanonical hcanonical]

/-- An object that names its slot in a text, turns the flag off in words and has half a backup. -/
theorem slotEntries_rebuilt_backup :
    let parameters : Dict Value := Dict.ofList [("active", .string " OFF "),
      ("tray", .string "7"), ("slot", .number (.int 3)), ("backup_slot", .number (.int 2))]
    let fields : Dict Value := Dict.ofList [("command", .null), ("category", .string "tray"),
      ("parameters", .object parameters.entries)]
    [fields].mapM richCommand = .ok ["TrayExecByTrayWithBackup 0 7 3 0 2"] ∧
      List.Forall₂ IsRebuilt [⟨7, 3, 0, some ⟨0, 2⟩⟩] ["TrayExecByTrayWithBackup 0 7 3 0 2"] := by
  intro parameters fields
  have hentry : IsSlotEntry fields ⟨7, 3, 0, some ⟨0, 2⟩⟩ :=
    ⟨parameters, ⟨nofun, rfl, rfl⟩, eq_ok_of_toOption (by decide +kernel)⟩
  have hcommands : [fields].mapM richCommand = .ok ["TrayExecByTrayWithBackup 0 7 3 0 2"] :=
    eq_ok_of_toOption (by decide +kernel)
  obtain ⟨chain, hchain, hrebuilt, -⟩ := slotEntries_rebuilt.2 _ _ (.cons hentry .nil)
  obtain rfl := Except.ok.inj (hchain.symm.trans hcommands)
  exact ⟨hchain, hrebuilt⟩

end Migration

end Keybinds

import Keybinds.Command.Spelling

/-!
# Ranges of slots

A range of slots, which may cross trays, becomes one command for each slot; with backups, a second
range of the same length is walked beside it. Slots are numbered through all trays, and no number
that is used is beyond 32 bits. A range that ends before it starts is empty.
-/

namespace Keybinds.Command

/-- The number of a slot that exists. -/
def checkSlot (s : TraySlot) : Except SpellingFault Nat :=
  match s.index? with
  | some i => if s.slot.toNat < slotsPerTray then .ok i else .error (.slotOutOfRange s)
  | none => .error (.slotOutOfRange s)

/-- The numbers from one slot to another. -/
def slotRange (first last : TraySlot) : Except SpellingFault (List Nat) := do
  let i ← checkSlot first
  let j ← checkSlot last
  return List.range' i (j + 1 - i)

/-- The shorter spelling of the command that addresses the slot with a number. -/
def slotCommand (active : UInt8) (i : Nat) (backup : Option TraySlot) : String :=
  let s := TraySlot.ofIndex i
  TrayParams.spell .implicit { tray := s.tray, slot := s.slot, active, backup }

/-- The commands for the slots from one to another. -/
def expandRange (first last : TraySlot) (active : UInt8) : Except SpellingFault (List String) := do
  let slots ← slotRange first last
  return slots.map fun i => slotCommand active i none

/-- The commands for the slots from one to another, each with a backup, the first of which is
given. -/
def expandRangeWithBackup (first last backup : TraySlot) (active : UInt8) :
    Except SpellingFault (List String) := do
  let slots ← slotRange first last
  let b ← checkSlot backup
  if UInt32.size ≤ b + (slots.length - 1) then throw (.slotOutOfRange backup)
  return slots.mapIdx fun k i => slotCommand active i (some (.ofIndex (b + k)))

/-- The first and the last slot of a tray. -/
def trayEnds (tray : UInt32) : TraySlot × TraySlot :=
  (⟨tray, 0⟩, ⟨tray, .ofNat (slotsPerTray - 1)⟩)

/-- The commands for all slots of a tray. -/
def expandTray (tray : UInt32) (active : UInt8) : Except SpellingFault (List String) := do
  let (first, last) := trayEnds tray
  expandRange first last active

/-- The commands for all slots of a tray, each with the same slot of another tray as its backup.
That the other tray exists is not asked for. -/
def expandTrayWithBackup (tray backupTray : UInt32) (active : UInt8) :
    Except SpellingFault (List String) := do
  let (first, last) := trayEnds tray
  let slots ← slotRange first last
  return slots.map fun i => slotCommand active i (some ⟨backupTray, (TraySlot.ofIndex i).slot⟩)

end Keybinds.Command

import Keybinds.Command.Signature
import Keybinds.Json.Value

/-!
# Tray parameters of old profiles

Old profiles hold the parameters of a tray command as an object. A field that is missing or no
number is zero; a whole number that fits no 32 bits is refused. Numbers may also stand in strings.
The flag `active` may be of any type; only the explicit ways to say no turn it off.
-/

namespace Keybinds.Command

open Json (Value)

/-- The active flag that a value of any type stands for. -/
def activeOfValue : Value → UInt8
  | .bool b => if b then 1 else 0
  | .number (.int n) => if n = 0 then 0 else 1
  | .number (.real x) => if x.isZero then 0 else 1
  | .string s => activeOfText s
  | _ => 1

/-- A field whose number fits no 32 bits. -/
structure RangeFault where
  field : String
  number : Int
  deriving DecidableEq, Repr

def RangeFault.message (fault : RangeFault) : String :=
  fault.field ++ " " ++ toString fault.number ++ " is out of range"

/-- The whole number that a field holds: itself, or in a string as an unsigned number of 64 bits. -/
def wholeNumber? : Value → Option Int
  | .number (.int n) => some n
  | .string s => (Text.readUnsigned? UInt64.size (Text.strip s.toList)).map Int.ofNat
  | _ => none

/-- The 32-bit number under a name; `none` if the field is missing or no number. -/
def trayField (fields : Dict Value) (name : String) : Except RangeFault (Option UInt32) :=
  match (fields.get? name).bind wholeNumber? with
  | none => .ok none
  | some n => if 0 ≤ n ∧ n < UInt32.size then .ok (some (.ofNat n.toNat)) else .error ⟨name, n⟩

/-- The tray parameters that an object holds. There is a backup if one of its two fields is
there. -/
def TrayParams.ofFields (fields : Dict Value) : Except RangeFault TrayParams := do
  let backupTray ← trayField fields "backup_tray"
  let backupSlot ← trayField fields "backup_slot"
  let tray ← trayField fields "tray"
  let slot ← trayField fields "slot"
  return {
    tray := tray.getD 0
    slot := slot.getD 0
    active := ((fields.get? "active").map activeOfValue).getD 1
    backup :=
      if backupTray.isSome || backupSlot.isSome then some ⟨backupTray.getD 0, backupSlot.getD 0⟩
      else none }

end Keybinds.Command

import Keybinds.Number.Shortest
import Keybinds.Text.Unicode

/-!
# Parameters of commands

A tray has ten slots; `TraySlot.index?` numbers the slots of all trays in one line. The parameters
of a command are of one of five kinds, or there are none.
-/

namespace Keybinds.Command

def slotsPerTray : Nat := 10

/-- A place in a tray. -/
structure TraySlot where
  tray : UInt32
  slot : UInt32
  deriving DecidableEq, Repr

namespace TraySlot

/-- The place in the line of all slots. -/
def position (s : TraySlot) : Nat :=
  s.tray.toNat * slotsPerTray + s.slot.toNat

/-- The place in the line of all slots, if it fits 32 bits. -/
def index? (s : TraySlot) : Option Nat :=
  if s.position < UInt32.size then some s.position else none

/-- The slot at a place in the line. -/
def ofIndex (i : Nat) : TraySlot :=
  ⟨.ofNat (i / slotsPerTray), .ofNat (i % slotsPerTray)⟩

/-- The slot behind this one, which may be in the next tray. -/
def next? (s : TraySlot) : Option TraySlot := do
  let i ← s.index?
  if i + 1 < UInt32.size then some (ofIndex (i + 1)) else none

end TraySlot

/-- What a tray command addresses. The flag `active` counts as off if it is zero and as on
otherwise. -/
structure TrayParams where
  tray : UInt32
  slot : UInt32
  active : UInt8 := 1
  /-- The slot that is used when the first one is not ready. -/
  backup : Option TraySlot := none
  deriving DecidableEq, Repr

namespace TrayParams

def primary (p : TrayParams) : TraySlot := ⟨p.tray, p.slot⟩

/-- The flag as it is written: zero or one. -/
def activeBit (p : TrayParams) : UInt8 := if p.active = 0 then 0 else 1

end TrayParams

inductive Parameters where
  | bare
  | tray (params : TrayParams)
  | amount (value : Option Number.Single)
  | ability (name : String)
  | text (text : String)
  deriving DecidableEq, Repr

/-! ## In messages -/

/-- Amounts as commands hold them: never with an exponent, and whole ones without a point. -/
def plainLayout : Number.Layout where
  tie := .up
  positional _ := true
  pointZero := false

/-- Amounts as messages show them: with an exponent from 1e16 on and below 1e-4. -/
def messageLayout : Number.Layout where
  tie := .up
  positional power := -4 ≤ power && power < 16
  pointZero := true

/-- The text of an amount in a layout. -/
def amountText (layout : Number.Layout) (x : Number.Single) : String :=
  if x.isFinite then String.ofList ((layout.write x).text [])
  else if x.isInfinite then (if x.negative then "-inf" else "inf")
  else "NaN"

/-- An optional part as messages show it. -/
def describeOption {α : Type} (f : α → String) : Option α → String
  | some a => "Some(" ++ f a ++ ")"
  | none => "None"

/-- Named parts between braces. -/
def describeParts (name : String) (parts : List (String × String)) : String :=
  name ++ " \x7b " ++ ", ".intercalate (parts.map fun (k, v) => k ++ ": " ++ v) ++ " \x7d"

def TraySlot.describe (s : TraySlot) : String :=
  describeParts "TraySlot" [("tray", toString s.tray.toNat), ("slot", toString s.slot.toNat)]

def TrayParams.describe (p : TrayParams) : String :=
  describeParts "TrayParams" [("tray", toString p.tray.toNat), ("slot", toString p.slot.toNat),
    ("active", toString p.active.toNat), ("backup", describeOption TraySlot.describe p.backup)]

/-- Parameters as messages show them. -/
def Parameters.describe : Parameters → String
  | .bare => "None"
  | .tray p => "Tray(" ++ p.describe ++ ")"
  | .amount value =>
    describeParts "Amount" [("amount", describeOption (amountText messageLayout) value)]
  | .ability name => describeParts "Ability" [("name", Text.quoted name)]
  | .text words => describeParts "Text" [("text", Text.quoted words)]

end Keybinds.Command

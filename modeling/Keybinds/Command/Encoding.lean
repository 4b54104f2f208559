import Keybinds.Command.Signature
import Keybinds.Json.Fields
import Keybinds.Json.Value

/-!
# Signatures as JSON

Parameters are an object whose field `kind` tells what else stands in it. Reading ignores unknown
fields but wants every known one at most once, and every number as a whole number of its width; an
amount may be any number. It also takes a list of the values alone, the kind first, and a list of
tray and slot for the address of a slot.
-/

namespace Keybinds.Command

open Json (Written Value Numeric)

/-! ## Writing -/

/-- An object with the given members. -/
def object (members : List (String × Written)) : Written :=
  .object (members.map fun (name, value) => (some name, value))

def word (s : String) : Written := .string (some s)

def natural (n : Nat) : Written := .number (Json.intNumeral n)

def TraySlot.toNode (s : TraySlot) : Written :=
  object [("tray", natural s.tray.toNat), ("slot", natural s.slot.toNat)]

/-- An amount, in the layout of singles. -/
def amountNode : Option Number.Single → Written
  | some x => if x.isFinite then .number (Json.singleLayout.write x) else .null
  | none => .null

def Parameters.toNode : Parameters → Written
  | .bare => object [("kind", word "none")]
  | .tray p =>
    object ([("kind", word "tray"), ("tray", natural p.tray.toNat), ("slot", natural p.slot.toNat),
      ("active", natural p.active.toNat)] ++ (p.backup.map fun b => ("backup", b.toNode)).toList)
  | .amount value => object [("kind", word "amount"), ("amount", amountNode value)]
  | .ability name => object [("kind", word "ability"), ("name", word name)]
  | .text words => object [("kind", word "text"), ("text", word words)]

/-- A command with its signature. -/
def Signature.toNode (command : String) (s : Signature) : Written :=
  object [("command", word command), ("category", word s.category.name),
    ("command_id", (s.id.map word).getD .null), ("parameters", s.parameters.toNode)]

/-! ## Reading -/

/-- A field that must be there and not be null. -/
def required? {α : Type} (fields : Json.Fields Number.Numeral) (name : String)
    (f : Written → Option α) : Option α := do
  f (← (← fields.find? name))

def readUInt32? (node : Written) : Option UInt32 :=
  (node.readBelow? UInt32.size).map .ofNat

def readSlot? (node : Written) : Option TraySlot := do
  let fields ← node.record? ["tray", "slot"] 2
  return ⟨← required? fields "tray" readUInt32?, ← required? fields "slot" readUInt32?⟩

def readTray? (node : Written) : Option TrayParams := do
  let fields ← node.record? ["tray", "slot", "active", "backup"] 3
  return {
    tray := ← required? fields "tray" readUInt32?
    slot := ← required? fields "slot" readUInt32?
    active := .ofNat (← required? fields "active" (Json.Node.readBelow? UInt8.size))
    backup := ← fields.readNullable? "backup" readSlot? }

/-- The single nearest to a whole number, or to the double that another number is read as. -/
def readAmount? (node : Written) : Option Number.Single := do
  match node with
  | .number n =>
    match ← Numeric.ofNumeral? n with
    | .int n => some (.ofInt n)
    | .real x => some x.convert
  | _ => none

/-- The only text in a record with the field `name`. -/
def readOnly? (name : String) (node : Written) : Option String := do
  required? (← node.record? [name] 1) name Json.Node.readString?

/-- The kind of parameters, and the record with their other values: the object itself, or what
follows the kind in a list. -/
def kindOfNode? : Written → Option (String × Written)
  | .array (.string kind :: rest) => kind.map (·, .array rest)
  | node => do return (← required? (← node.fields?) "kind" Json.Node.readString?, node)

/-- The parameters that an object or a list stands for. -/
def Parameters.ofNode? (node : Written) : Option Parameters := do
  let _ ← Value.ofNode? Numeric.ofNumeral? Json.deepest node
  let (kind, record) ← kindOfNode? node
  match kind with
  | "none" => (record.record? [] 0).map fun _ => .bare
  | "tray" => (readTray? record).map .tray
  | "amount" => do
    return .amount (← (← record.record? ["amount"] 1).readNullable? "amount" readAmount?)
  | "ability" => (readOnly? "name" record).map .ability
  | "text" => (readOnly? "text" record).map .text
  | _ => none

/-- The parameters that a text stands for. -/
def Parameters.read? (s : String) : Option Parameters :=
  Json.Node.read? s >>= Parameters.ofNode?

end Keybinds.Command

import Keybinds.Command.Definition
import Keybinds.Command.Parameters
import Keybinds.Text.Basic
import Keybinds.Text.Numeral

/-!
# Signatures

The signature of a command is its category, the id of the known command that it is, and its
parameters. It is always derived from the command's text. A command whose arguments do not fit the
known command of its name has no id and is taken as a text.

A tray command stands in one of two forms. The implicit form has a plus sign in front and is active:
`+Name tray slot`. The explicit form has the flag in front of the numbers: `Name active tray slot`;
with fewer numbers than that it is read like the implicit form. A number that cannot be read is
zero.
-/

namespace Keybinds.Command

structure Signature where
  category : Category
  id : Option String
  parameters : Parameters
  deriving DecidableEq, Repr

/-! ## Parts of a command -/

/-- A command taken apart. -/
structure Parts where
  /-- Whether a plus sign stands in front. -/
  implicit : Bool
  name : String
  /-- The text behind the name, without the blanks at its ends. -/
  rest : List Char

/-- The words behind the name. -/
def Parts.arguments (p : Parts) : List (List Char) :=
  Text.words p.rest

def Parts.ofCommand (command : String) : Parts :=
  let trimmed := Text.strip command.toList
  let (name, rest) := Text.firstWord (trimmed.dropWhile (· == '+'))
  ⟨trimmed.head? == some '+', String.ofList name, rest⟩

/-! ## Arguments -/

/-- The texts that turn the active flag off; any other turns it on. -/
def inactiveWords : List String := ["", "0", "false", "off"]

/-- The active flag that a text stands for. -/
def activeOfText (text : String) : UInt8 :=
  if Text.lower (Text.trim text) ∈ inactiveWords then 0 else 1

/-- The number at a place among the arguments, or zero. -/
def numberAt (arguments : List (List Char)) (place : Nat) : UInt32 :=
  (arguments[place]?.bind Text.readUInt32?).getD 0

def trayOfArguments (implicit withBackup : Bool) (arguments : List (List Char)) : TrayParams :=
  let full := if withBackup then 5 else 3
  let (active, numbers) := match arguments with
    | flag :: rest =>
      if !implicit && full ≤ arguments.length then (activeOfText (String.ofList flag), rest)
      else (1, arguments)
    | [] => (1, [])
  { tray := numberAt numbers 0
    slot := numberAt numbers 1
    active
    backup := if withBackup then some ⟨numberAt numbers 2, numberAt numbers 3⟩ else none }

/-- The parameters of a known command, if the arguments fit its shape. -/
def Shape.parameters? (shape : Shape) (parts : Parts) : Option Parameters :=
  match shape, parts.arguments with
  | .bare, [] => some .bare
  | .bare, _ => none
  | .tray, arguments => some (.tray (trayOfArguments parts.implicit false arguments))
  | .trayBackup, arguments => some (.tray (trayOfArguments parts.implicit true arguments))
  | .amount, [] => some (.amount none)
  | .amount, [argument] => (Number.readFinite? argument).map fun x => .amount (some x)
  | .amount, _ => none
  | .ability, [argument] => some (.ability (String.ofList argument))
  | .ability, _ => none
  | .text, _ => some (.text (String.ofList parts.rest))

/-! ## Recognition -/

/-- Id and parameters of a command that is read as a member of a category. -/
def resolve (command : String) (category : Category) : Option String × Parameters :=
  let parts := Parts.ofCommand command
  let known? := do
    let d ← (Definition.byName? (bareName parts.name)).filter (·.category = category)
    return (d.id, ← d.shape.parameters? parts)
  match known? with
  | some (id, parameters) => (some id, parameters)
  | none => (none, .text (Text.trim command))

/-- The parameters of a command that is read as a member of a category. -/
def Parameters.ofCommand (command : String) (category : Category) : Parameters :=
  (resolve command category).2

/-- The signature of a command. -/
def Signature.ofCommand (command : String) : Signature :=
  let category := Category.ofName (bareName (Parts.ofCommand command).name)
  let (id, parameters) := resolve command category
  ⟨category, id, parameters⟩

end Keybinds.Command

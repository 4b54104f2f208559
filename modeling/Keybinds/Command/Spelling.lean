import Keybinds.Command.Signature

/-!
# Spelling commands

`spell` writes the command that has a given signature. An active tray command has two spellings;
`Form` picks one, and `shorten` turns the explicit one into the implicit one. Without an id the text
is the command.
-/

namespace Keybinds.Command

/-- How active tray commands are spelled. -/
inductive Form where
  /-- `Name 1 tray slot` -/
  | explicit
  /-- `+Name tray slot` -/
  | implicit
  deriving DecidableEq, Repr

inductive SpellingFault where
  | unknownCommand (category : Category) (id : String)
  | mismatch (id : Option String) (parameters : Parameters)
  | slotOutOfRange (slot : TraySlot)
  deriving DecidableEq, Repr

def SpellingFault.message : SpellingFault → String
  | .unknownCommand category id => "unknown " ++ category.name ++ " command '" ++ id ++ "'"
  | .mismatch id parameters =>
    "parameters " ++ parameters.describe ++ " do not fit command '" ++ id.getD "<verbatim>" ++ "'"
  | .slotOutOfRange s =>
    "slot " ++ toString s.slot.toNat ++ " of tray " ++ toString s.tray.toNat ++
      " is out of range (0.." ++ toString slotsPerTray ++ ")"

/-! ## Tray commands -/

def trayName : String := "STOTrayExecByTray"
def trayBackupName : String := "TrayExecByTrayWithBackup"

/-- A name and the numbers behind it. -/
def withNumbers (name : String) (numbers : List Nat) : String :=
  " ".intercalate (name :: numbers.map toString)

/-- The command that addresses a tray. -/
def TrayParams.spell (form : Form) (p : TrayParams) : String :=
  let (name, backup) := match p.backup with
    | none => (trayName, [])
    | some b => (trayBackupName, [b.tray.toNat, b.slot.toNat])
  let numbers := p.tray.toNat :: p.slot.toNat :: backup
  if form = .implicit ∧ p.activeBit = 1 then withNumbers ("+" ++ name) numbers
  else withNumbers name (p.activeBit.toNat :: numbers)

/-- The id of the command that addresses a tray. -/
def TrayParams.id (p : TrayParams) : String :=
  if p.backup.isSome then "tray_with_backup" else "tray_exec"

/-! ## All commands -/

/-- A name and, behind a space, an argument that may be missing. -/
def withArgument (name argument : String) : String :=
  if argument.isEmpty then name else name ++ " " ++ argument

/-- The spelling of a known command, if the parameters fit its shape. -/
def Definition.spell? (form : Form) (d : Definition) (parameters : Parameters) : Option String :=
  match d.shape, parameters with
  | .bare, .bare => some d.name
  | .tray, .tray p => if p.backup.isNone then some (p.spell form) else none
  | .trayBackup, .tray p => if p.backup.isSome then some (p.spell form) else none
  | .amount, .amount none => some d.name
  | .amount, .amount (some x) =>
    if x.isFinite then some (d.name ++ " " ++ amountText plainLayout x) else none
  | .ability, .ability name =>
    let name := Text.trim name
    if name.isEmpty || name.toList.any Text.isBlank then none else some (d.name ++ " " ++ name)
  | .text, .text words => some (withArgument d.name (Text.trim words))
  | _, _ => none

/-- The command with the given category, id and parameters. -/
def spell (form : Form) (category : Category) (id : Option String) (parameters : Parameters) :
    Except SpellingFault String :=
  match id with
  | none =>
    match parameters with
    | .text words =>
      if (Text.trim words).isEmpty then .error (.mismatch none parameters)
      else .ok (Text.trim words)
    | _ => .error (.mismatch none parameters)
  | some id =>
    match (Definition.byId? id).filter (·.category = category) with
    | none => .error (.unknownCommand category id)
    | some d =>
      match d.spell? form parameters with
      | some command => .ok command
      | none => .error (.mismatch (some id) parameters)

/-- The command, or its implicit form if it is an active tray command in the explicit one. -/
def shorten (command : String) : String :=
  let trimmed := Text.trim command
  if trimmed.toList.head? = some '+' then command
  else
    match Signature.ofCommand trimmed with
    | ⟨_, some id, .tray p⟩ =>
      if (id = "tray_exec" ∨ id = "tray_with_backup") ∧ p.active = 1 then p.spell .implicit
      else command
    | _ => command

end Keybinds.Command

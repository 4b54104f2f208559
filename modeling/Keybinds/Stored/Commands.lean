import Keybinds.Chain.Scan
import Keybinds.Command.Spelling
import Keybinds.Command.TrayFields

/-!
# Stored command lists

Profiles of different age hold a command list as one text, as a list of texts and objects, or as
something that is no command list. A list of canonical commands is the form that lists are brought
to. `Commands.commands` gives the commands that a list in any form holds: texts are cut at their
separators, and an object gives its command, which for a tray command without a text is rebuilt from
its parameters.
-/

namespace Keybinds.Stored

open Json (Value)

/-- An element of a stored list. -/
inductive Element where
  | plain (text : String)
  | rich (fields : Dict Value)
  | malformed (value : Value)

/-- A stored command list. -/
inductive Commands where
  | text (text : String)
  | list (items : List Element)
  | malformed (value : Value)

instance : Inhabited Commands := ⟨.list []⟩

/-! ## As JSON -/

def Element.ofValue : Value → Element
  | .string s => .plain s
  | .object members => .rich (Dict.ofList members)
  | value => .malformed value

def Element.toValue : Element → Value
  | .plain s => .string s
  | .rich fields => .object fields.entries
  | .malformed value => value

def Commands.ofValue : Value → Commands
  | .string s => .text s
  | .array items => .list (items.map Element.ofValue)
  | value => .malformed value

def Commands.toValue : Commands → Value
  | .text s => .string s
  | .list items => .array (items.map Element.toValue)
  | .malformed value => value

/-- Equality up to the order of the members of objects. -/
def Element.same : Element → Element → Bool
  | .plain a, .plain b => a == b
  | .rich a, .rich b => Json.sameFields a b
  | .malformed a, .malformed b => a.same b
  | _, _ => false

/-- Equality up to the order of the members of objects. -/
def Commands.same : Commands → Commands → Bool
  | .text a, .text b => a == b
  | .list as, .list bs => as.length == bs.length && (as.zip bs).all fun (a, b) => a.same b
  | .malformed a, .malformed b => a.same b
  | _, _ => false

/-! ## Canonical lists -/

/-- A plain element that is a canonical command. -/
def Element.canonical? : Element → Option String
  | .plain s => if Chain.isCanonical s then some s else none
  | _ => none

namespace Commands

/-- The commands of a list that is canonical already. -/
def canonical? : Commands → Option (List String)
  | .list items => items.mapM Element.canonical?
  | _ => none

def isCanonical (c : Commands) : Bool :=
  c.canonical?.isSome

/-- The list of plain commands. -/
def ofChain (chain : List String) : Commands :=
  .list (chain.map .plain)

end Commands

/-! ## Rich elements -/

/-- Why an object gives no command. -/
inductive RichFault where
  | noCommand
  | trayParameters (fault : Command.RangeFault)
  | traySpelling (fault : Command.SpellingFault)
  deriving DecidableEq, Repr

def RichFault.message : RichFault → String
  | .noCommand => "object has no command and cannot be rebuilt"
  | .trayParameters fault => "tray parameters: " ++ fault.message
  | .traySpelling fault => "tray parameters: " ++ fault.message

/-- Whether one of the two fields that tell a command's kind says that it is a tray command. -/
def saysTray (fields : Dict Value) : Bool :=
  ["type", "category"].any fun name => (fields.get? name).bind Value.asString? == some "tray"

/-- The command of an object. -/
def richCommand (fields : Dict Value) : Except RichFault String :=
  match fields.get? "command" with
  | some (.string command) => .ok command
  | _ =>
    match (fields.get? "parameters").bind Value.asObject?, saysTray fields with
    | some parameters, true => do
      let p ← (Command.TrayParams.ofFields parameters).mapError .trayParameters
      (Command.spell .implicit .tray (some p.id) (.tray p)).mapError .traySpelling
    | _, _ => .error .noCommand

/-! ## Commands of a list -/

/-- The commands that an element gives. -/
def Element.commands : Element → List String
  | .plain s => Chain.split s
  | .rich fields =>
    match richCommand fields with
    | .ok command => Chain.split command
    | .error _ => []
  | .malformed _ => []

/-- The commands that a list gives. -/
def Commands.commands : Commands → List String
  | .text s => Chain.split s
  | .list items => items.flatMap Element.commands
  | .malformed _ => []

/-- The list in canonical form; a list that is canonical stays as it is. -/
def Commands.canonicalized (c : Commands) : Commands :=
  if c.isCanonical then c else .ofChain c.commands

end Keybinds.Stored

import Keybinds.Stored.Commands

/-!
# Stored aliases

An alias is stored as an object with a command list, a description and a type tag; very old profiles
hold the command list alone. Anything else is malformed. Of the known fields of an object only a
text counts as a description or a type; other values stay among the unknown fields.
-/

namespace Keybinds.Stored

open Json (Value)

/-- An alias that is stored as an object. -/
structure AliasRecord where
  commands : Commands := default
  description : Option String := none
  /-- The type tag. -/
  tag : Option String := none
  extra : Dict Value := ∅

/-- A stored alias. -/
inductive AliasEntry where
  | record (r : AliasRecord)
  | bare (c : Commands)
  | malformed (value : Value)

/-- Takes a text out of some fields; the last field takes its place. -/
def takeString (fields : Dict Value) (name : String) : Option String × Dict Value :=
  match fields.get? name with
  | some (.string s) => (some s, fields.swapErase name)
  | _ => (none, fields)

/-- The known fields are taken out one after another, so the unknown ones may change their order. -/
def AliasRecord.ofFields (fields : Dict Value) : AliasRecord :=
  let commands := ((fields.get? "commands").map Commands.ofValue).getD default
  let (description, rest) := takeString (fields.swapErase "commands") "description"
  let (tag, extra) := takeString rest "type"
  { commands, description, tag, extra }

/-- Known fields first, unknown ones behind them. -/
def AliasRecord.toValue (r : AliasRecord) : Value :=
  .object (Json.distinct (("commands", r.commands.toValue) ::
    ((r.description.map fun s => ("description", Value.string s)).toList ++
      (r.tag.map fun s => ("type", Value.string s)).toList ++ r.extra.entries)))

/-- Equality up to the order of the members of objects. -/
def AliasRecord.same (a b : AliasRecord) : Bool :=
  a.commands.same b.commands && a.description == b.description && a.tag == b.tag &&
    Json.sameFields a.extra b.extra

namespace AliasEntry

def ofValue : Value → AliasEntry
  | .object members => .record (.ofFields (Dict.ofList members))
  | .string s => .bare (.ofValue (.string s))
  | .array items => .bare (.ofValue (.array items))
  | value => .malformed value

def toValue : AliasEntry → Value
  | .record r => r.toValue
  | .bare c => c.toValue
  | .malformed value => value

/-- Equality up to the order of the members of objects. -/
def same : AliasEntry → AliasEntry → Bool
  | .record a, .record b => a.same b
  | .bare a, .bare b => a.same b
  | .malformed a, .malformed b => a.same b
  | _, _ => false

def record? : AliasEntry → Option AliasRecord
  | .record r => some r
  | _ => none

/-- The command list, if there is one. -/
def commands? : AliasEntry → Option Commands
  | .record r => some r.commands
  | .bare c => some c
  | .malformed _ => none

/-- Whether the alias is stored as an object with a canonical command list. -/
def isCanonical : AliasEntry → Bool
  | .record r => r.commands.isCanonical
  | _ => false

/-- The record that an alias in any form becomes. -/
def toRecord : AliasEntry → AliasRecord
  | .record r => r
  | .bare c => { commands := c }
  | .malformed _ => {}

/-- The alias in canonical form. -/
def canonicalized (a : AliasEntry) : AliasEntry :=
  .record { a.toRecord with commands := a.toRecord.commands.canonicalized }

end AliasEntry

end Keybinds.Stored

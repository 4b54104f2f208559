import Keybinds.Json.Fields
import Keybinds.Name.Pattern.Reader
import Keybinds.Name.Rules
import Keybinds.Text.Basic

/-!
# Name tables from configuration

A configuration overrides parts of the stock table: patterns replace its tests, limits replace its
limits, and reserved names add to its list. It is a JSON object, of which unknown fields are
ignored, or the list of the values of all its fields.
-/

namespace Keybinds

structure NameConfig where
  keyPattern : Option String := none
  aliasPattern : Option String := none
  reservedAliases : List String := []
  maxKeyLength : Option Nat := none
  maxAliasLength : Option Nat := none
  deriving DecidableEq, Repr

/-- Which of the two patterns cannot be read. -/
inductive PatternFault where
  | keyPattern
  | aliasPattern
  deriving DecidableEq, Repr

def PatternFault.field : PatternFault → String
  | .keyPattern => "key_pattern"
  | .aliasPattern => "alias_pattern"

namespace NameConfig

open Json (Node)

/-- The names of the fields of a configuration. -/
def fieldNames : List String :=
  ["key_pattern", "alias_pattern", "reserved_aliases", "max_key_len", "max_alias_len"]

/-- Reads a configuration; a text of another form gives `none`. -/
def read? (text : String) : Option NameConfig := do
  let fields ← (← Node.read? text).record? fieldNames fieldNames.length
  let limit := Node.readBelow? UInt64.size
  return {
    keyPattern := ← fields.readNullable? "key_pattern" Node.readString?
    aliasPattern := ← fields.readNullable? "alias_pattern" Node.readString?
    reservedAliases :=
      (← fields.read? "reserved_aliases" (Node.readArray? Node.readString?)).getD []
    maxKeyLength := ← fields.readNullable? "max_key_len" limit
    maxAliasLength := ← fields.readNullable? "max_alias_len" limit
  }

/-- The test of a pattern, or `stock` where no pattern is given. -/
def test (pattern : Option String) (fault : PatternFault) (stock : String → Bool) :
    Except PatternFault (String → Bool) :=
  match pattern with
  | none => .ok stock
  | some text =>
    match Pattern.read? text with
    | some p => .ok p.occursIn
    | none => .error fault

/-- A reserved name as the table lists it. -/
def reservedForm (name : String) : String :=
  Text.lower (Text.trim name)

/-- The stock table with the tests and what else the configuration overrides. -/
def tableWith (config : NameConfig) (keyText aliasText : String → Bool) : NameTable where
  keyText
  aliasText
  reserved := NameTable.gameCommands ++ config.reservedAliases.map reservedForm
  maxKeyLength := config.maxKeyLength.getD NameTable.stock.maxKeyLength
  maxAliasLength := config.maxAliasLength.getD NameTable.stock.maxAliasLength

/-- The table of a configuration, unless a pattern cannot be read. -/
def table (config : NameConfig) : Except PatternFault NameTable := do
  let keyText ← test config.keyPattern .keyPattern NameTable.stock.keyText
  let aliasText ← test config.aliasPattern .aliasPattern NameTable.stock.aliasText
  return config.tableWith keyText aliasText

end NameConfig

end Keybinds

import Keybinds.Json.Fields
import Keybinds.Json.Writer
import Keybinds.Stored.AliasEntry

/-!
# Stored profiles

A document is a profile as it is stored, of any age. Unknown fields of the document, of its builds
and of its aliases are kept. Reading wants the known fields at most once and of their type;
`Document.toValue` writes them first, in a fixed order, and the unknown ones behind them.
-/

namespace Keybinds.Stored

open Json (Value Node Numeric Fields)

/-- Flags of a chain. -/
structure Flags where
  /-- Whether the chain is written mirrored. -/
  stabilized : Bool := false
  deriving DecidableEq, Repr

/-- The keys of one environment. -/
structure Build where
  keys : Dict Commands := ∅
  extra : Dict Value := ∅

structure Document where
  name : Option String := none
  description : Option String := none
  currentEnvironment : Option String := none
  /-- Before version 2: the environment of `keys`. -/
  mode : Option String := none
  /-- Before version 2: the keys of the only environment. -/
  keys : Option (Dict Commands) := none
  builds : Dict Build := ∅
  aliases : Dict AliasEntry := ∅
  keyFlags : Dict (Dict Flags) := ∅
  aliasFlags : Dict Flags := ∅
  version : Option String := none
  created : Option String := none
  lastModified : Option String := none
  extra : Dict Value := ∅

/-! ## Reading -/

variable {ν : Type}

def Flags.ofNode? (node : Node ν) : Option Flags := do
  let fields ← node.record? ["stabilizeExecutionOrder"] 0
  return ⟨(← fields.read? "stabilizeExecutionOrder" Node.readBool?).getD false⟩

/-- The values of fields, which are read one by one. -/
def extraOfFields? (num? : ν → Option Numeric) (depth : Nat) (fields : Fields ν) :
    Option (Dict Value) := do
  let entries ← fields.mapM fun (name, node) => return (name, ← Value.ofNode? num? depth node)
  return Dict.ofList entries

def commandsOfNode? (num? : ν → Option Numeric) (depth : Nat) (node : Node ν) : Option Commands :=
  (Value.ofNode? num? depth node).map Commands.ofValue

/-- A build, itself one of `depth` containers inside each other. -/
def Build.ofNode? (num? : ν → Option Numeric) (depth : Nat) (node : Node ν) : Option Build := do
  let fields ← node.fields?
  return {
    keys := (← fields.read? "keys" (Node.readDict? (commandsOfNode? num? (depth - 2)))).getD ∅
    extra := ← extraOfFields? num? (depth - 1) (fields.without ["keys"]) }

/-- The names of the fields of a document. -/
def documentFields : List String :=
  ["name", "description", "currentEnvironment", "mode", "keys", "builds", "aliases",
    "keybindMetadata", "aliasMetadata", "migrationVersion", "created", "lastModified"]

namespace Document

/-- A document, itself one of `depth` containers inside each other. -/
def ofNode? (num? : ν → Option Numeric) (depth : Nat) (node : Node ν) : Option Document := do
  let fields ← node.fields?
  let string := fun name => fields.readNullable? name Node.readString?
  return {
    name := ← string "name"
    description := ← string "description"
    currentEnvironment := ← string "currentEnvironment"
    mode := ← string "mode"
    keys := ← fields.readNullable? "keys" (Node.readDict? (commandsOfNode? num? (depth - 2)))
    builds := (← fields.read? "builds" (Node.readDict? (Build.ofNode? num? (depth - 2)))).getD ∅
    aliases := (← fields.read? "aliases" (Node.readDict? fun node =>
      (Value.ofNode? num? (depth - 2) node).map AliasEntry.ofValue)).getD ∅
    keyFlags :=
      (← fields.read? "keybindMetadata" (Node.readDict? (Node.readDict? Flags.ofNode?))).getD ∅
    aliasFlags := (← fields.read? "aliasMetadata" (Node.readDict? Flags.ofNode?)).getD ∅
    version := ← string "migrationVersion"
    created := ← string "created"
    lastModified := ← string "lastModified"
    extra := ← extraOfFields? num? (depth - 1) (fields.without documentFields) }

/-- The document that a text holds. -/
def read? (text : String) : Option Document :=
  Node.read? text >>= ofNode? Numeric.ofNumeral? Json.deepest

/-- The document that a value stands for. -/
def ofValue? (v : Value) : Option Document :=
  ofNode? some Json.deepest (v.toNode id)

/-! ## Writing -/

end Document

def objectOf {α : Type} (f : α → Value) (d : Dict α) : Value :=
  .object (d.entries.map fun (k, a) => (k, f a))

def Flags.toValue (flags : Flags) : Value :=
  .object [("stabilizeExecutionOrder", .bool flags.stabilized)]

def Build.toValue (build : Build) : Value :=
  .object (("keys", objectOf Commands.toValue build.keys) :: build.extra.entries)

namespace Document

/-- A field that is left out when it is missing. -/
def optional {α : Type} (name : String) (f : α → Value) (a : Option α) : List (String × Value) :=
  (a.map fun a => (name, f a)).toList

/-- A field that is left out when it is empty. -/
def unlessEmpty {α : Type} (name : String) (f : α → Value) (d : Dict α) : List (String × Value) :=
  if d.isEmpty then [] else [(name, objectOf f d)]

def toValue (d : Document) : Value :=
  .object (optional "name" .string d.name ++ optional "description" .string d.description ++
    optional "currentEnvironment" .string d.currentEnvironment ++ optional "mode" .string d.mode ++
    optional "keys" (objectOf Commands.toValue) d.keys ++
    [("builds", objectOf Build.toValue d.builds)] ++
    [("aliases", objectOf AliasEntry.toValue d.aliases)] ++
    unlessEmpty "keybindMetadata" (objectOf Flags.toValue) d.keyFlags ++
    unlessEmpty "aliasMetadata" Flags.toValue d.aliasFlags ++
    optional "migrationVersion" .string d.version ++ optional "created" .string d.created ++
    optional "lastModified" .string d.lastModified ++ d.extra.entries)

/-- The text that a document is stored as. -/
def text (d : Document) : String :=
  d.toValue.written.wide

/-- The text of a document without spaces. -/
def compactText (d : Document) : String :=
  d.toValue.written.compact

/-! ## Canonical documents -/

/-- Whether the document has no top-level keys and all its command lists are canonical. -/
def isCanonical (d : Document) : Bool :=
  d.keys.isNone && d.builds.values.all (fun b => b.keys.values.all Commands.isCanonical) &&
    d.aliases.values.all AliasEntry.isCanonical

/-! ## Contents -/

/-- Equality up to the order of the members of objects. -/
def same (a b : Document) : Bool :=
  a.name == b.name && a.description == b.description &&
    a.currentEnvironment == b.currentEnvironment && a.mode == b.mode && a.version == b.version &&
    a.created == b.created && a.lastModified == b.lastModified &&
    (match a.keys, b.keys with
      | none, none => true
      | some x, some y => x.sameBy Commands.same y
      | _, _ => false) &&
    a.builds.sameBy (fun x y =>
      x.keys.sameBy Commands.same y.keys && Json.sameFields x.extra y.extra) b.builds &&
    a.aliases.sameBy AliasEntry.same b.aliases &&
    a.keyFlags.sameBy (fun x y => x.sameBy (· == ·) y) b.keyFlags &&
    a.aliasFlags.sameBy (· == ·) b.aliasFlags &&
    Json.sameFields a.extra b.extra

end Document

end Keybinds.Stored

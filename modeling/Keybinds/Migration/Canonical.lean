import Keybinds.Migration.Event

/-!
# Canonical shapes

The first step of a migration, which is also run behind all others: keys that stand at the top level
move into a build, and every command list that is not canonical is replaced by the commands that it
gives. What cannot be interpreted is reported and gives no commands.
-/

namespace Keybinds.Migration

open Stored (Element Commands AliasEntry Build Document)

/-! ## Events of a command list -/

/-- The events of an element at a location. -/
def elementEvents (location : String) : Element → List Event
  | .plain _ => []
  | .rich fields =>
    match Stored.richCommand fields with
    | .ok _ => []
    | .error fault => [.malformed ⟨location, fault.message⟩]
  | .malformed .null => [.droppedNull location]
  | .malformed value => [.malformed ⟨location, "command is " ++ value.kind⟩]

/-- The location of an element of a list. -/
def elementLocation (location : String) (i : Nat) : String :=
  location ++ "[" ++ toString i ++ "]"

/-- The events of a command list at a location. -/
def commandsEvents (location : String) : Commands → List Event
  | .text _ => []
  | .list items =>
    (items.mapIdx fun i item => elementEvents (elementLocation location i) item).flatten
  | .malformed value => [.malformed ⟨location, "command list is " ++ value.kind⟩]

/-! ## Top-level keys -/

/-- The environment of profiles that name none. -/
def defaultEnvironment : String := "space"

/-- The environment that top-level keys belong to. -/
def legacyEnvironment (d : Document) : String :=
  match d.mode.map fun mode => Text.lower (Text.trim mode) with
  | some mode => if mode.isEmpty then defaultEnvironment else mode
  | none => defaultEnvironment

/-- The build with the keys that it does not bind yet. -/
def addKeys (build : Build) (keys : Dict Commands) : Build :=
  { build with
    keys := keys.entries.foldl (fun bound (key, c) => bound.insertIfNew key c) build.keys }

/-- The document with its top-level keys in a build and without a mode. -/
def liftKeys (d : Document) : Document :=
  match d.keys with
  | none => { d with mode := none }
  | some keys =>
    let environment := legacyEnvironment d
    { d with
      mode := none
      keys := none
      currentEnvironment := d.currentEnvironment <|> some environment
      builds := d.builds.alter environment fun build => addKeys (build.getD {}) keys }

def liftKeysEvents (d : Document) : List Event :=
  match d.keys with
  | none => []
  | some keys => [.liftedKeys keys.size (legacyEnvironment d)]

/-! ## Command lists -/

/-- The build with its command lists in canonical form. -/
def canonicalBuild (build : Build) : Build :=
  { build with keys := build.keys.map Commands.canonicalized }

/-- The document with all command lists in canonical form. -/
def canonicalLists (d : Document) : Document :=
  { d with
    builds := d.builds.map canonicalBuild
    aliases := d.aliases.map fun a => if a.isCanonical then a else a.canonicalized }

/-- The events of a build's command lists. -/
def buildEvents (environment : String) (build : Build) : List Event :=
  build.keys.entries.flatMap fun (key, c) =>
    if c.isCanonical then [] else commandsEvents ("builds." ++ environment ++ ".keys." ++ key) c

/-- The events of an alias. -/
def aliasEvents (name : String) (a : AliasEntry) : List Event :=
  let location := "aliases." ++ name
  if a.isCanonical then []
  else
    match a with
    | .record r => commandsEvents (location ++ ".commands") r.commands
    | .bare c => commandsEvents location c
    | .malformed value => [.malformed ⟨location, "alias is " ++ value.kind⟩]

def canonicalListsEvents (d : Document) : List Event :=
  (d.builds.entries.flatMap fun (environment, build) => buildEvents environment build) ++
    d.aliases.entries.flatMap fun (name, a) => aliasEvents name a

/-- Whether some command list is not canonical. -/
def hasLooseLists (d : Document) : Bool :=
  d.builds.values.any (fun b => b.keys.values.any (!·.isCanonical)) ||
    d.aliases.values.any (!·.isCanonical)

/-! ## The step -/

/-- The document in canonical shape. -/
def canonicalize (d : Document) : Document :=
  canonicalLists (liftKeys d)

/-- Whether the document changes. -/
def canonicalizeChanges (d : Document) : Bool :=
  d.keys.isSome || d.mode.isSome || hasLooseLists (liftKeys d)

def canonicalizeEvents (d : Document) : List Event :=
  liftKeysEvents d ++ canonicalListsEvents (liftKeys d)

end Keybinds.Migration

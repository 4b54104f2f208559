import Keybinds.Profile.Basic

/-!
# Profiles and documents

`Profile.ofDocument` takes exactly the canonical documents; on another it names the first entry that
is not canonical. `Profile.toDocument` goes back. Of a canonical document only the mode is lost, and
a missing name or environment is filled in.
-/

namespace Keybinds

open Stored (Commands AliasEntry AliasRecord Build Document)

/-- Why a document gives no profile. -/
inductive ContractFault where
  | legacyKeys
  | looseKey (environment key : String)
  | looseAlias (name : String)
  deriving DecidableEq, Repr

def ContractFault.message : ContractFault → String
  | .legacyKeys => "profile still has pre-2.0 top-level keys; normalize it first"
  | .looseKey environment key =>
    "keybind " ++ environment ++ "/" ++ key ++ " is not canonical; normalize the profile first"
  | .looseAlias name => "alias '" ++ name ++ "' is not canonical; normalize the profile first"

namespace Profile

/-- Maps the values of a dictionary by a function that may fail. -/
def mapDictM {α β : Type} (d : Dict α) (f : String → α → Except ContractFault β) :
    Except ContractFault (Dict β) := do
  let entries ← d.entries.mapM fun (k, a) => return (k, ← f k a)
  return Dict.ofList entries

/-- The chain under a key of a build. -/
def chainOf (environment key : String) (c : Commands) : Except ContractFault (List String) :=
  match c.canonical? with
  | some chain => .ok chain
  | none => .error (.looseKey environment key)

def keysOf (environment : String) (build : Build) : Except ContractFault (Dict (List String)) :=
  mapDictM build.keys (chainOf environment)

/-- The alias that a stored one holds. -/
def aliasOf (name : String) (a : AliasEntry) : Except ContractFault Alias :=
  match a with
  | .record r =>
    match r.commands.canonical? with
    | some commands =>
      .ok { commands, description := r.description, tag := r.tag, extra := r.extra }
    | none => .error (.looseAlias name)
  | _ => .error (.looseAlias name)

/-- The profile that a canonical document holds. -/
def ofDocument (d : Document) : Except ContractFault Profile := do
  if d.keys.isSome then throw .legacyKeys
  let builds ← mapDictM d.builds keysOf
  let aliases ← mapDictM d.aliases aliasOf
  return {
    name := d.name.getD ""
    description := d.description
    currentEnvironment := d.currentEnvironment.getD Migration.defaultEnvironment
    builds
    aliases
    keyFlags := d.keyFlags
    aliasFlags := d.aliasFlags
    version := d.version
    created := d.created
    lastModified := d.lastModified
    buildExtra := (d.builds.map Build.extra).filter fun _ extra => !extra.isEmpty
    extra := d.extra }

def recordOf (a : Alias) : AliasRecord where
  commands := .ofChain a.commands
  description := a.description
  tag := a.tag
  extra := a.extra

/-- The document that stores a profile. -/
def toDocument (p : Profile) : Document where
  name := some p.name
  description := p.description
  currentEnvironment := some p.currentEnvironment
  builds := p.builds.mapWithKey fun environment keys =>
    { keys := keys.map Commands.ofChain, extra := (p.buildExtra.get? environment).getD ∅ }
  aliases := p.aliases.map fun a => .record (recordOf a)
  keyFlags := p.keyFlags
  aliasFlags := p.aliasFlags
  version := p.version
  created := p.created
  lastModified := p.lastModified
  extra := p.extra

end Profile

end Keybinds

import Keybinds.BindFile.Basic
import Keybinds.Migration.Normalize

/-!
# Profiles

A profile is what a canonical document holds: in each environment keys with chains, and aliases that
all environments share. Chains may be flagged as stabilized; they are written mirrored. Operations
that touch the data take the time as a text.
-/

namespace Keybinds

open Json (Value)
open Stored (Flags)

/-- A named chain with what is stored about it. -/
structure Alias where
  commands : List String := []
  description : Option String := none
  /-- The stored type tag. -/
  tag : Option String := none
  extra : Dict Value := ∅

structure Profile where
  name : String
  description : Option String := none
  currentEnvironment : String
  /-- The keys of each environment. -/
  builds : Dict (Dict (List String))
  aliases : Dict Alias := ∅
  keyFlags : Dict (Dict Flags) := ∅
  aliasFlags : Dict Flags := ∅
  version : Option String
  created : Option String
  lastModified : Option String
  /-- The unknown fields of the builds that have any. -/
  buildExtra : Dict (Dict Value) := ∅
  extra : Dict Value := ∅

namespace Profile

/-- The environments of a new profile. -/
def environments : List String := [Migration.defaultEnvironment, "ground"]

/-- A profile without keys and aliases. -/
def new (name now : String) : Profile where
  name
  currentEnvironment := Migration.defaultEnvironment
  builds := Dict.ofList (environments.map (·, ∅))
  version := some Version.current.text
  created := some now
  lastModified := some now

/-! ## Keys and aliases -/

/-- The keys of an environment. -/
def keys? (p : Profile) (environment : String) : Option (Dict (List String)) :=
  p.builds.get? environment

/-- The profile with an environment, which is new and empty unless it is there. -/
def withEnvironment (p : Profile) (environment : String) : Profile :=
  { p with builds := p.builds.insertIfNew environment ∅ }

/-- Binds a key; the chain replaces the one before. -/
def setKey (p : Profile) (environment key : String) (chain : List String) : Profile :=
  { p with builds := p.builds.alter environment fun build => (build.getD ∅).insert key chain }

def setAlias (p : Profile) (name : String) (a : Alias) : Profile :=
  { p with aliases := p.aliases.insert name a }

/-- Gives an alias another chain and keeps the rest of it. -/
def setAliasCommands (p : Profile) (name : String) (chain : List String) : Profile :=
  { p with aliases := p.aliases.alter name fun a => { a.getD {} with commands := chain } }

/-! ## Flags -/

def isKeyStabilized (p : Profile) (environment key : String) : Bool :=
  ((p.keyFlags.get? environment).bind (·.get? key)).any (·.stabilized)

def isAliasStabilized (p : Profile) (name : String) : Bool :=
  (p.aliasFlags.get? name).any (·.stabilized)

def stabilizeKey (p : Profile) (environment key : String) (on : Bool) : Profile :=
  { p with keyFlags := p.keyFlags.alter environment fun flags => (flags.getD ∅).insert key ⟨on⟩ }

def stabilizeAlias (p : Profile) (name : String) (on : Bool) : Profile :=
  { p with aliasFlags := p.aliasFlags.insert name ⟨on⟩ }

/-- Sets the time of the last change. -/
def touch (p : Profile) (now : String) : Profile :=
  { p with lastModified := some now }

/-! ## Importing -/

/-- Binds a key and flags it as the file says; a flag that would stay off is not entered. -/
def importKey (p : Profile) (environment : String) (file : BindFile) (key : String)
    (chain : List String) : Profile :=
  let on := file.stabilizedKeys.contains key
  let bound := p.setKey environment key chain
  if on || bound.isKeyStabilized environment key then bound.stabilizeKey environment key on
  else bound

/-- Gives an alias its chain and flags it as the file says; a flag that would stay off is not
entered. -/
def importAlias (p : Profile) (file : BindFile) (name : String) (chain : List String) : Profile :=
  let on := file.stabilizedAliases.contains name
  let named := p.setAliasCommands name chain
  if on || named.isAliasStabilized name then named.stabilizeAlias name on else named

/-- The number of names that a file declares. -/
def importCount (file : BindFile) : Nat :=
  file.keys.size + file.aliases.size

/-- Merges a binding file into an environment. What the file declares replaces what was there. -/
def importFile (p : Profile) (environment : String) (file : BindFile) (now : String) : Profile :=
  let bound :=
    file.keys.entries.foldl (fun p (key, chain) => p.importKey environment file key chain) p
  let named :=
    file.aliases.entries.foldl (fun p (name, chain) => p.importAlias file name chain) bound
  if 0 < importCount file then named.touch now else named

end Profile

end Keybinds

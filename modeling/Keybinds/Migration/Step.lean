import Keybinds.Migration.Canonical
import Keybinds.Text.Basic

/-!
# Steps of a migration

Each step brings a document to a version, and runs on documents of earlier versions only. The first
step makes all shapes canonical; the second removes the aliases that the tool once generated against
visual effects; the third mends a misspelled command in the aliases that load sets of bindings.
-/

namespace Keybinds.Migration

open Stored (Element Commands AliasEntry AliasRecord Document)

/-! ## Generated aliases -/

def vfxNameStart : String := "dynFxSetFXExclusionList_"

/-- The type tag of generated aliases. -/
def vfxTag : String := "vfx-alias"

/-- Whether an alias was generated, by its name or by its type tag. -/
def isGenerated (name : String) (a : AliasEntry) : Bool :=
  vfxNameStart.toList.isPrefixOf name.toList || a.record?.any fun r => r.tag == some vfxTag

/-- The document without its generated aliases and without flags of aliases that are not there. -/
def dropGenerated (d : Document) : Document :=
  let aliases := d.aliases.filter fun name a => !isGenerated name a
  { d with aliases, aliasFlags := d.aliasFlags.filter fun name _ => aliases.contains name }

def dropGeneratedChanges (d : Document) : Bool :=
  d.aliases.entries.any fun (name, a) => isGenerated name a

def dropGeneratedEvents (d : Document) : List Event :=
  (d.aliases.entries.filter fun (name, a) => isGenerated name a).map fun (name, _) =>
    .removedAlias name

/-! ## Misspelled loaders -/

def loaderNameStart : String := "sto_kb_bindset_enable_"

def isLoaderChar (c : Char) : Bool :=
  c.isAlphanum || c == '_'

/-- Whether an alias is one that loads a set of bindings: the start of such names, then at least one
letter, digit or underscore, and nothing else. -/
def isLoaderName (name : String) : Bool :=
  let rest := name.toList.drop loaderNameStart.length
  loaderNameStart.toList.isPrefixOf name.toList && !rest.isEmpty && rest.all isLoaderChar

def misspelled : String := "bind_laod_file"
def spelledRight : String := "bind_load_file"

def isMisspelled (s : String) : Bool :=
  Text.occursIn misspelled.toList s.toList

def mend (s : String) : String :=
  String.ofList (Text.replaceAll misspelled.toList spelledRight.toList s.toList)

def mendElement : Element → Element
  | .plain s => .plain (mend s)
  | e => e

def mendCommands : Commands → Commands
  | .text s => .text (mend s)
  | .list items => .list (items.map mendElement)
  | c => c

/-- Whether a text in the list is misspelled. -/
def commandsMisspelled : Commands → Bool
  | .text s => isMisspelled s
  | .list items => items.any fun
    | .plain s => isMisspelled s
    | _ => false
  | .malformed _ => false

/-- Only aliases that are stored as objects are mended. -/
def mendAlias (name : String) (a : AliasEntry) : AliasEntry :=
  match a with
  | .record r =>
    if isLoaderName name then .record { r with commands := mendCommands r.commands } else a
  | _ => a

def needsMending (name : String) (a : AliasEntry) : Bool :=
  isLoaderName name && a.record?.any fun r => commandsMisspelled r.commands

def mendLoaders (d : Document) : Document :=
  { d with aliases := d.aliases.mapWithKey mendAlias }

def mendLoadersChanges (d : Document) : Bool :=
  d.aliases.entries.any fun (name, a) => needsMending name a

def mendLoadersEvents (d : Document) : List Event :=
  (d.aliases.entries.filter fun (name, a) => needsMending name a).map fun (name, _) =>
    .fixedLoader name

/-! ## Steps -/

inductive Step where
  | canonicalCommands
  | dropGenerated
  | mendLoaders
  deriving DecidableEq, Repr

namespace Step

/-- All steps, oldest first. -/
def all : List Step := [canonicalCommands, dropGenerated, mendLoaders]

def name : Step → String
  | canonicalCommands => "canonical-commands"
  | dropGenerated => "drop-generated-vfx-aliases"
  | mendLoaders => "fix-bindset-loader-spelling"

/-- The version that a document is at behind the step. -/
def version : Step → Version
  | canonicalCommands => ⟨2, 0, 0⟩
  | dropGenerated => ⟨2, 1, 0⟩
  | mendLoaders => ⟨2, 1, 1⟩

def apply : Step → Document → Document
  | canonicalCommands => canonicalize
  | dropGenerated => Migration.dropGenerated
  | mendLoaders => Migration.mendLoaders

/-- Whether the step changes a document. -/
def changes : Step → Document → Bool
  | canonicalCommands => canonicalizeChanges
  | dropGenerated => dropGeneratedChanges
  | mendLoaders => mendLoadersChanges

def events : Step → Document → List Event
  | canonicalCommands => canonicalizeEvents
  | dropGenerated => dropGeneratedEvents
  | mendLoaders => mendLoadersEvents

/-- The steps that a document of a version still has before it. -/
def pending (v : Version) : List Step :=
  all.filter fun step => v < step.version

def ofName? (name : String) : Option Step :=
  all.find? fun step => step.name == name

end Step

end Keybinds.Migration

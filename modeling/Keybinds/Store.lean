import Keybinds.Files.Access
import Keybinds.Files.Path
import Keybinds.Migration.Normalize

/-!
# Profile stores

A store keeps one document in a file for each id. Saving writes beside the file and then moves the
new file into its place, so the file never holds a part of a document. A store brings no document up
to date by itself; `Store.loadNormalized` does, and writes the document back if it had to be
changed.
-/

namespace Keybinds

open Stored (Document)

structure Store where
  directory : String
  deriving DecidableEq, Repr

/-- Why an operation of a store failed. -/
inductive StoreFault where
  | missing (id : String)
  | badId (id : String)
  | file (action : String) (fault : FileFault)
  | notDocument (path : String)
  deriving DecidableEq, Repr

def StoreFault.message : StoreFault → String
  | missing id => "no profile '" ++ id ++ "'"
  | badId id => "'" ++ id ++ "' is not a valid profile id"
  | file action fault => "io: " ++ action ++ ": " ++ fault.message
  | notDocument path => "json: " ++ path ++ ": deserialize profile: not a stored profile"

/-- Operations that log what they do, also what they did before they failed. -/
abbrev StoreM (m : Type → Type) : Type → Type := ExceptT StoreFault (StateT (List Log.Entry) m)

namespace Store

/-! ## Ids -/

/-- Whether a character is a control character. -/
def isControl (c : Char) : Bool :=
  c.toNat < 0x20 || (0x7F ≤ c.toNat && c.toNat < 0xA0)

/-- Whether an id names a file in the store's directory that is not hidden. -/
def isValidId (id : String) : Bool :=
  !(Text.trim id).isEmpty && id.toList.head? != some '.' &&
    !id.toList.any fun c => c == '/' || c == '\\' || c == ':' || isControl c

def extension : String := "json"

/-- The path of the file of a valid id. -/
def pathOf (s : Store) (id : String) : String :=
  Path.join s.directory (id ++ "." ++ extension)

/-- The path that the file of a valid id has while it is written. -/
def draftPathOf (s : Store) (id : String) : String :=
  Path.withExtension (extension ++ ".tmp") (s.pathOf id)

def path (s : Store) (id : String) : Except StoreFault String :=
  if isValidId id then .ok (s.pathOf id) else .error (.badId id)

/-! ## Operations -/

variable {m : Type → Type} [Monad m] [FileAccess m]

def note (entries : List Log.Entry) : StoreM m Unit :=
  modify (· ++ entries)

/-- Does an operation on a file; the action stands in front of the fault. -/
def attempt {α : Type} (action : String) (operation : m (Except FileFault α)) : StoreM m α := do
  match ← (operation : m _) with
  | .ok a => return a
  | .error fault => throw (.file action fault)

/-- The document under an id. -/
def load (s : Store) (id : String) : StoreM m Document := do
  let path ← s.path id
  if !(← (FileAccess.isPresent path : m Bool)) then throw (.missing id)
  let text ← attempt ("read " ++ path) (FileAccess.readText path)
  match Document.read? text with
  | none => throw (.notDocument path)
  | some d =>
    note [.debug ("[store] loaded " ++ path)]
    return d

/-- Puts a document under an id. -/
def save (s : Store) (id : String) (d : Document) : StoreM m Unit := do
  let path ← s.path id
  let draft := s.draftPathOf id
  attempt ("create " ++ s.directory) (FileAccess.createDirectories s.directory)
  attempt ("write " ++ draft) (FileAccess.writeText draft d.text)
  attempt ("rename " ++ draft ++ " -> " ++ path) (FileAccess.moveFile draft path)
  note [.info ("[store] wrote " ++ path)]

/-- Loads a document and brings it up to date; one that has to be changed is written back, and its
report is given. -/
def loadNormalized (s : Store) (now id : String) :
    StoreM m (Document × Option Migration.Report) := do
  let d ← s.load id
  if !Migration.needsNormalization d then return (d, none)
  let n := Migration.normalize now d
  note (n.events.map Migration.Event.entry)
  s.save id n.document
  return (n.document, some n.report)

/-- The ids with a document, in the order of their characters. -/
def ids [DirectoryAccess m] (s : Store) : StoreM m (List String) := do
  if !(← (DirectoryAccess.isDirectory s.directory : m Bool)) then return []
  let names ← attempt ("read_dir " ++ s.directory) (DirectoryAccess.fileNames s.directory)
  return ((names.filter (Path.hasExtension extension)).filterMap Path.stem?).mergeSort

end Store

end Keybinds

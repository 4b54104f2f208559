import Keybinds.Dict
import Keybinds.Files.Access
import Keybinds.Files.Path

/-!
# File trees in memory

A tree of directories and files as a value. Its items are listed by their places, which are names
below the root with slashes between them. Relative paths start at the root and may lead above it:
the directories that the root lies in are there, but nothing is known to be in them. Names are at
most 255 bytes long.
-/

namespace Keybinds

inductive FileItem where
  | file (bytes : ByteArray)
  | directory

structure FileTree where
  /-- What absolute paths into the tree start with. -/
  root : String := ""
  items : Dict FileItem := ∅

namespace FileTree

/-- The longest name of a file, in bytes. -/
def longestName : Nat := 255

/-- The place that names lead to. -/
def placeOf (ns : List String) : String :=
  "/".intercalate ns

/-- Whether a place is the root or a directory that the root lies in. -/
def isRootOrAbove (place : List String) : Bool :=
  place.all (· == "..")

/-- What stands at a place. -/
def item? (t : FileTree) (place : List String) : Option FileItem :=
  if isRootOrAbove place then some .directory else t.items.get? (placeOf place)

/-- Lets pass if a directory stands at the place. -/
def requireDirectory (t : FileTree) (place : List String) : Except FileFault Unit :=
  match t.item? place with
  | some .directory => .ok ()
  | some (.file _) => .error .notDirectory
  | none => .error .missing

/-- The place that one more name leads to. -/
def enter (place : List String) (name : String) : Except FileFault (List String) :=
  if name = "" ∨ name = "." then .ok place
  else if name = ".." then .ok (if isRootOrAbove place then place ++ [".."] else place.dropLast)
  else if longestName < name.utf8ByteSize then .error .nameTooLong
  else .ok (place ++ [name])

/-- Follows names from a place; each name is looked up in a directory. -/
def follow (t : FileTree) (place : List String) : List String → Except FileFault (List String)
  | [] => .ok place
  | name :: rest => do
    t.requireDirectory place
    t.follow (← enter place name) rest

/-- The names that lead from the root to where a path points, unless it points out of the tree. -/
def names? (t : FileTree) (path : String) : Option (List String) :=
  let inside := (t.root ++ "/").toList
  let names := fun cs => (Path.names (String.ofList cs)).map String.ofList
  if inside.isPrefixOf path.toList then some (names (path.toList.drop inside.length))
  else if path.toList.head? = some '/' then none
  else some (names path.toList)

/-- The place of a path, where something need not stand. -/
def locate (t : FileTree) (path : String) : Except FileFault (List String) :=
  match t.names? path with
  | some ns => t.follow [] ns
  | none => .error .missing

/-- What stands where a path points. -/
def at? (t : FileTree) (path : String) : Option FileItem :=
  (t.locate path).toOption.bind t.item?

/-! ## Reading -/

def isDirectory (t : FileTree) (path : String) : Bool :=
  match t.at? path with
  | some .directory => true
  | _ => false

def readText (t : FileTree) (path : String) : Except FileFault String := do
  match t.item? (← t.locate path) with
  | none => .error .missing
  | some .directory => .error .isDirectory
  | some (.file bytes) =>
    match String.fromUTF8? bytes with
    | some text => .ok text
    | none => .error .notText

/-- The name at the end of a place that lies in a directory, which starts with `start`. -/
def nameBelow? (start : List Char) (place : String) : Option String :=
  let rest := place.toList.drop start.length
  if start.isPrefixOf place.toList && !rest.contains '/' then some (String.ofList rest) else none

def fileNames (t : FileTree) (path : String) : Except FileFault (List String) := do
  let place ← t.locate path
  t.requireDirectory place
  let start := if place.isEmpty then [] else (placeOf place ++ "/").toList
  return t.items.entries.filterMap fun (place, item) =>
    match item with
    | .file _ => nameBelow? start place
    | .directory => none

/-! ## Writing -/

def putItem (t : FileTree) (place : List String) (item : FileItem) : FileTree :=
  { t with items := t.items.insert (placeOf place) item }

def writeBytes (t : FileTree) (path : String) (bytes : ByteArray) : Except FileFault FileTree :=
  if path.toList.getLast? = some '/' then .error .isDirectory
  else do
    let place ← t.locate path
    match t.item? place with
    | some .directory => .error .isDirectory
    | _ => return t.putItem place (.file bytes)

def moveFile (t : FileTree) (source target : String) : Except FileFault FileTree := do
  let origin ← t.locate source
  let place ← t.locate target
  match t.item? origin, t.item? place with
  | none, _ => .error .missing
  | some .directory, _ => .error .isDirectory
  | some (.file _), some .directory => .error .isDirectory
  | some (.file bytes), _ =>
    return { t with items := t.items.erase (placeOf origin) }.putItem place (.file bytes)

/-- Follows names and creates the directories that are missing; what was created stays. -/
def createFrom (t : FileTree) (place : List String) : List String → Except FileFault Unit × FileTree
  | [] =>
    match t.item? place with
    | some .directory => (.ok (), t)
    | some (.file _) => (.error .present, t)
    | none => (.ok (), t.putItem place .directory)
  | name :: rest =>
    let t := if (t.item? place).isSome then t else t.putItem place .directory
    match t.requireDirectory place, enter place name with
    | .ok (), .ok place => t.createFrom place rest
    | .error fault, _ => (.error fault, t)
    | _, .error fault => (.error fault, t)

def createDirectories (t : FileTree) (path : String) : Except FileFault Unit × FileTree :=
  match t.names? path with
  | some ns => t.createFrom [] ns
  | none => (.error .denied, t)

/-! ## As a file system -/

/-- Replaces the tree unless there was a fault. -/
def update (change : FileTree → Except FileFault FileTree) :
    StateM FileTree (Except FileFault Unit) :=
  fun t =>
    match change t with
    | .ok t => (.ok (), t)
    | .error fault => (.error fault, t)

instance : FileAccess (StateM FileTree) where
  isPresent path := return ((← get).at? path).isSome
  readText path := return (← get).readText path
  writeText path text := update fun t => t.writeBytes path text.toUTF8
  moveFile source target := update fun t => t.moveFile source target
  createDirectories path := fun t => t.createDirectories path

instance : DirectoryAccess (StateM FileTree) where
  isDirectory path := return (← get).isDirectory path
  fileNames path := return (← get).fileNames path

end FileTree

end Keybinds

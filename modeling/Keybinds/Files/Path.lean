/-!
# Paths

A path is a text of names with slashes between them. Empty names mean nothing, nor does a point that
is not the first name; a path that starts with a slash starts at the root.
-/

namespace Keybinds.Path

/-- The names between the slashes. -/
def names (path : String) : List (List Char) :=
  path.toList.splitOnP (· == '/')

/-- Whether a name that is not the first one means nothing. -/
def isVoid (name : List Char) : Bool :=
  name == [] || name == ['.']

/-- Names without the void ones at their end; the first name stays. -/
def trimmed : List (List Char) → List (List Char)
  | [] => []
  | first :: rest => first :: (rest.reverse.dropWhile isVoid).reverse

/-- The path that names spell. -/
def ofNames : List (List Char) → String
  | [[]] => "/"
  | ns => String.ofList (['/'].intercalate ns)

/-- The path of the directory that a path lies in, empty if that is where relative paths start. -/
def parent? (path : String) : Option String :=
  match trimmed (names path) with
  | [] | [[]] => none
  | ns => some (ofNames (trimmed ns.dropLast))

/-- The name that a path ends in, unless that leads up or nowhere. -/
def fileName? (path : String) : Option (List Char) :=
  match (trimmed (names path)).getLast? with
  | none | some [] | some ['.'] | some ['.', '.'] => none
  | some name => some name

/-- A name cut at its last point, which is not its first character. -/
def splitName (name : List Char) : List Char × Option (List Char) :=
  let ending := (name.reverse.takeWhile (· != '.')).reverse
  let stem := name.take (name.length - ending.length - 1)
  if stem.isEmpty then (name, none) else (stem, some ending)

/-- Whether a path ends in a name with the extension. -/
def hasExtension (extension : String) (path : String) : Bool :=
  (fileName? path).any fun name => (splitName name).2 == some extension.toList

/-- The name that a path ends in, without its extension. -/
def stem? (path : String) : Option String :=
  (fileName? path).map fun name => String.ofList (splitName name).1

/-- The path with another extension of the name that it ends in, or with none; a path without a name
stays as it is. -/
def withExtension (extension : String) (path : String) : String :=
  match fileName? path with
  | none => path
  | some name =>
    let ending := if extension.isEmpty then [] else '.' :: extension.toList
    ofNames ((trimmed (names path)).dropLast ++ [(splitName name).1 ++ ending])

/-- The path of a name in a directory. -/
def join (directory name : String) : String :=
  if directory.isEmpty || directory.toList.getLast? = some '/' then directory ++ name
  else directory ++ "/" ++ name

end Keybinds.Path

import Keybinds.BindFile.Line
import Keybinds.Dict
import Keybinds.Log

/-!
# Binding files

A binding file is read line by line. What is skipped or commented is kept with its line number; a
name that is declared again keeps its place and takes the later chain. When mirrors are detected, a
mirrored chain is stored as its first half and its name is listed as stabilized.
-/

namespace Keybinds

namespace BindFile

/-- A line that was skipped, with its text as it stands in the file. -/
structure SkippedLine where
  number : Nat
  text : String
  fault : LineFault
  deriving DecidableEq, Repr

def SkippedLine.message (line : SkippedLine) : String :=
  "line " ++ toString line.number ++ ": " ++ line.fault.message ++ " (" ++ line.text ++ ")"

structure Comment where
  number : Nat
  text : String
  deriving DecidableEq, Repr

end BindFile

/-- The contents of a binding file. -/
structure BindFile where
  keys : Dict (List String) := ∅
  aliases : Dict (List String) := ∅
  skipped : List BindFile.SkippedLine := []
  comments : List BindFile.Comment := []
  stabilizedKeys : List String := []
  stabilizedAliases : List String := []
  /-- The names that were declared again, one entry for each time. -/
  duplicates : List String := []
  deriving DecidableEq

namespace BindFile

def isEmpty (file : BindFile) : Bool :=
  file.keys.isEmpty && file.aliases.isEmpty

def hasErrors (file : BindFile) : Bool :=
  !file.skipped.isEmpty

/-- How a file is read: by which rules, and whether mirrored chains are taken apart. -/
structure Options where
  rules : NameRules := default
  detectMirrors : Bool := false

/-! ## Entering lines -/

/-- Lists or unlists a name; a listed name keeps its place. -/
def mark (names : List String) (name : String) (on : Bool) : List String :=
  if on then (if name ∈ names then names else names ++ [name]) else names.filter (· != name)

/-- The chain to store, and whether it was written mirrored. -/
def collapse (detectMirrors : Bool) (chain : List String) : List String × Bool :=
  match detectMirrors, Chain.half? chain with
  | true, some half => (half, true)
  | _, _ => (chain, false)

/-- The names of a realm that are declared so far. -/
def declared (file : BindFile) : Realm → Dict (List String)
  | .keys => file.keys
  | .aliases => file.aliases

def enterDeclaration (options : Options) (file : BindFile) (d : Declaration) : BindFile :=
  let (chain, mirrored) := collapse options.detectMirrors d.chain
  let duplicates :=
    if (file.declared d.realm).contains d.name then file.duplicates ++ [d.name] else file.duplicates
  match d.realm with
  | .keys =>
    { file with
      keys := file.keys.insert d.name chain
      stabilizedKeys := mark file.stabilizedKeys d.name mirrored
      duplicates }
  | .aliases =>
    { file with
      aliases := file.aliases.insert d.name chain
      stabilizedAliases := mark file.stabilizedAliases d.name mirrored
      duplicates }

/-- Enters the line with the given number and text. -/
def enter (options : Options) (file : BindFile) (number : Nat) (raw : List Char) : Line → BindFile
  | .blank => file
  | .comment text => { file with comments := file.comments ++ [⟨number, text⟩] }
  | .skipped fault => { file with skipped := file.skipped ++ [⟨number, String.ofList raw, fault⟩] }
  | .declaration d => file.enterDeclaration options d

/-- What the entering of a line logs. -/
def enterLog (file : BindFile) (number : Nat) (raw : List Char) : Line → List Log.Entry
  | .skipped fault =>
    [.warn ("[parse] " ++ (SkippedLine.mk number (String.ofList raw) fault).message)]
  | .declaration d =>
    let word := match d.realm with
      | .keys => ""
      | .aliases => "alias "
    if (file.declared d.realm).contains d.name then
      [.debug ("[parse] line " ++ toString number ++ ": " ++
        word ++ "'" ++ d.name ++ "' redeclared")]
    else []
  | _ => []

/-! ## Reading -/

/-- Enters lines in turn, the first of which has the given number. -/
def enterLines (options : Options) (file : BindFile) (number : Nat) : List (List Char) → BindFile
  | [] => file
  | raw :: rest =>
    let entered := file.enter options number raw (readLine options.rules number raw)
    enterLines options entered (number + 1) rest

/-- What the entering of lines logs. -/
def enterLinesLog (options : Options) (file : BindFile) (number : Nat) :
    List (List Char) → List Log.Entry
  | [] => []
  | raw :: rest =>
    let line := readLine options.rules number raw
    file.enterLog number raw line ++
      enterLinesLog options (file.enter options number raw line) (number + 1) rest

/-- Reads a binding file. -/
def read (options : Options) (text : String) : BindFile :=
  enterLines options {} 1 (Text.lines text.toList)

/-- The last log entry about a file that was read. -/
def summary (file : BindFile) : Log.Entry :=
  .info ("[parse] " ++ toString file.keys.size ++ " keybinds, " ++
    toString file.aliases.size ++ " aliases, " ++ toString file.comments.length ++ " comments, " ++
    toString file.skipped.length ++ " skipped lines")

/-- What the reading of a binding file logs. -/
def readLog (options : Options) (text : String) : List Log.Entry :=
  enterLinesLog options {} 1 (Text.lines text.toList) ++ [(read options text).summary]

end BindFile

end Keybinds

import Keybinds.CommandLine.Arguments

/-!
# Invocations

What a command line asks for: one action, whether to log in detail, and a file with rules for names.
These two switches may stand in front of the action's name or behind it; of two files the one behind
it counts.
-/

namespace Keybinds.CommandLine

/-- Where a profile is found. -/
inductive ProfilePlace where
  | file (path : String)
  | stored (id : String)
  | unnamed
  deriving DecidableEq, Repr

/-- What happens to a document that is brought up to date. -/
inductive NormalizeMode where
  | print
  /-- Nothing is changed; it is an error if something would be. -/
  | check
  | inPlace
  deriving DecidableEq, Repr

/-- The slots that a tray command is wanted for. -/
structure TrayRequest where
  tray : UInt32
  startSlot : Option UInt32
  endTray : Option UInt32
  endSlot : Option UInt32
  backupTray : Option UInt32
  inactive : Bool
  deriving DecidableEq, Repr

inductive Action where
  | importFile (input : String) (profile : ProfilePlace) (environment : Option String)
    (detectMirrors : Bool)
  | exportFile (profile : ProfilePlace) (environment : Option String) (output : Option String)
    (header : Bool)
  | normalize (profile : ProfilePlace) (mode : NormalizeMode)
  | classify (commands : List String)
  | mirror (chain : String) (detect : Bool)
  | expandTray (request : TrayRequest)
  deriving DecidableEq, Repr

structure Invocation where
  rules : Option String
  verbose : Bool
  action : Action
  deriving DecidableEq, Repr

/-! ## Actions -/

/-- The number that a switch is given, if it is given. -/
def number? (args : Arguments) (name : String) : Option UInt32 :=
  args.value? name >>= readNumber?

/-- A profile is in a file or has an id, but not both. -/
def profilePlace? (args : Arguments) : Option ProfilePlace :=
  match args.value? "file", args.value? "id" with
  | some _, some _ => none
  | some path, none => some (.file path)
  | none, some id => some (.stored id)
  | none, none => some .unnamed

def importFile? (args : Arguments) : Option Action := do
  return .importFile (← args.words.head?) (← profilePlace? args) (args.value? "env")
    (args.has "detect-mirrors")

def exportFile? (args : Arguments) : Option Action := do
  return .exportFile (← profilePlace? args) (args.value? "env") (args.value? "out")
    (!args.has "no-header")

def normalize? (args : Arguments) : Option Action := do
  let mode ← match args.has "check", args.has "in-place" with
    | true, true => none
    | true, false => some .check
    | false, true => some .inPlace
    | false, false => some NormalizeMode.print
  return .normalize (← profilePlace? args) mode

def classify? (args : Arguments) : Option Action :=
  if args.words.isEmpty then none else some (.classify args.words)

def mirror? (args : Arguments) : Option Action := do
  return .mirror (← args.words.head?) (args.has "detect")

def expandTray? (args : Arguments) : Option Action := do
  return .expandTray {
    tray := ← number? args "tray"
    startSlot := number? args "start-slot"
    endTray := number? args "end-tray"
    endSlot := number? args "end-slot"
    backupTray := number? args "backup-tray"
    inactive := args.has "inactive" }

/-- An action by its name, with the arguments that it takes and what they ask for. -/
structure ActionRule where
  name : String
  grammar : Grammar
  read? : Arguments → Option Action

/-- At most one word, of one kind. -/
def oneWord (kind : ValueKind) : Nat → Option ValueKind
  | 0 => some kind
  | _ => none

def profileSwitches : List Switch :=
  [⟨"file", none, .value .path⟩, ⟨"id", none, .value .text⟩]

def environmentSwitch : Switch := ⟨"env", none, .value .text⟩

def actionRules : List ActionRule := [
  ⟨"import",
    { switches := profileSwitches ++ [environmentSwitch, ⟨"detect-mirrors", none, .flag⟩]
      word? := oneWord .path }, importFile?⟩,
  ⟨"export",
    { switches := profileSwitches ++
        [environmentSwitch, ⟨"out", some 'o', .value .path⟩, ⟨"no-header", none, .flag⟩] },
    exportFile?⟩,
  ⟨"normalize",
    { switches := profileSwitches ++ [⟨"check", none, .flag⟩, ⟨"in-place", none, .flag⟩] },
    normalize?⟩,
  ⟨"classify", { switches := [], word? := fun _ => some .text }, classify?⟩,
  ⟨"mirror", { switches := [⟨"detect", none, .flag⟩], word? := oneWord .text }, mirror?⟩,
  ⟨"expand-tray",
    { switches := (["tray", "start-slot", "end-tray", "end-slot", "backup-tray"].map
        (⟨·, none, .value .number⟩)) ++ [⟨"inactive", none, .flag⟩] }, expandTray?⟩]

/-! ## Reading -/

/-- The switches that may stand on both sides of the action's name. -/
def globalSwitches : List Switch :=
  [⟨"rules", none, .value .path⟩, ⟨"verbose", some 'v', .flag⟩, ⟨"help", some 'h', .stop .help⟩]

/-- The word in place of an action's name that asks for help. -/
def helpWord : String := "help"

/-- Whether the arguments behind the word for help name at most one action. -/
def isHelpTopic : List String → Bool
  | [] => true
  | [name] => name == helpWord || actionRules.any fun rule => rule.name == name
  | _ => false

def orMisuse {α : Type} : Option α → Except Stop α
  | some a => .ok a
  | none => .error .misuse

/-- The grammar with the switches that may stand anywhere. -/
def withGlobalSwitches (g : Grammar) : Grammar :=
  { g with switches := globalSwitches ++ g.switches }

/-- What may stand in front of the action's name. -/
def frontGrammar : Grammar :=
  withGlobalSwitches { switches := [⟨"version", some 'V', .stop .version⟩] }

/-- Reads a command line. -/
def Invocation.read (arguments : List String) : Except Stop Invocation := do
  let (before, name, rest) ← readToWord frontGrammar {} arguments
  match actionRules.find? fun rule => rule.name == name with
  | some rule =>
    let behind ← readAll (withGlobalSwitches rule.grammar) {} rest
    return {
      rules := behind.value? "rules" <|> before.value? "rules"
      verbose := before.has "verbose" || behind.has "verbose"
      action := ← orMisuse (rule.read? behind) }
  | none => throw (if name == helpWord && isHelpTopic rest then .help else .misuse)

end Keybinds.CommandLine

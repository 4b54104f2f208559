import Keybinds.BindFile.Writer
import Keybinds.Chain.Mirror
import Keybinds.Command.Encoding
import Keybinds.Command.TrayRange
import Keybinds.CommandLine.Invocation
import Keybinds.Json.Writer
import Keybinds.Name.Config
import Keybinds.Profile.Stored
import Keybinds.Store
import Keybinds.Text.Unicode

/-!
# The command line

`run` carries out a command line on a file system. Results are printed, and all that is told about
them goes to the error output: log entries, of which the detailed ones only if asked for, reports,
and skipped lines. An action that fails ends with one line about its error.
-/

namespace Keybinds.CommandLine

open Stored (Document)

/-- What an action is carried out under. -/
structure Settings where
  now : String
  /-- The directory for the data of the user's programs. -/
  dataHome : Option String

/-- What was printed. -/
structure Printed where
  output : String := ""
  errors : String := ""
  deriving DecidableEq, Repr

structure Outcome where
  code : Nat
  printed : Printed
  deriving DecidableEq, Repr

/-- Actions that print and may fail with a message. -/
abbrev ActionM (m : Type → Type) : Type → Type := ExceptT String (StateT Printed m)

variable {m : Type → Type} [Monad m]

/-! ## Printing -/

def printText (text : String) : ActionM m Unit :=
  modify fun p => { p with output := p.output ++ text }

def printLine (line : String) : ActionM m Unit :=
  printText (line ++ "\n")

def tellLine (line : String) : ActionM m Unit :=
  modify fun p => { p with errors := p.errors ++ line ++ "\n" }

/-- The word in front of a shown log entry, padded to one width. -/
def levelWord : Log.Level → String
  | .info => "INFO:  "
  | .warn => "WARN:  "
  | .error => "ERROR: "
  | .debug => "DEBUG: "

def tellLog (verbose : Bool) (entries : List Log.Entry) : ActionM m Unit :=
  (entries.filter fun e => verbose || e.level != .debug).forM fun e =>
    tellLine (levelWord e.level ++ e.text)

/-! ## Parts of actions -/

/-- Does an operation on a file; the action stands in front of the fault. -/
def withFile {α : Type} (action : String) (operation : m (Except FileFault α)) : ActionM m α := do
  match ← (operation : m _) with
  | .ok a => return a
  | .error fault => throw (action ++ ": " ++ fault.message)

/-- Does an operation on a store and tells its log; what it gives is left to look at. -/
def tryStore {α : Type} (verbose : Bool) (operation : StoreM m α) :
    ActionM m (Except StoreFault α) := do
  let (result, log) ← (operation.run.run [] : m _)
  tellLog verbose log
  return result

def withStore {α : Type} (verbose : Bool) (operation : StoreM m α) : ActionM m α := do
  match ← tryStore verbose operation with
  | .ok a => return a
  | .error fault => throw fault.message

def getOrFail {ε α : Type} (message : ε → String) : Except ε α → ActionM m α
  | .ok a => return a
  | .error e => throw (message e)

/-- What is told about a normalization. -/
def tellReport (r : Migration.Report) : ActionM m Unit := do
  tellLine (r.source.text ++ " -> " ++ r.target.text ++ ": steps [" ++
    ", ".intercalate (r.steps.map Migration.Step.name) ++ "], changed: " ++
    if r.changed then "true" else "false")
  let t := r.tally
  tellLine ("  migrated " ++ toString t.itemsMigrated ++
    ", legacy shapes " ++ toString t.legacyShapesRemoved ++
    ", strings split " ++ toString t.stringsSplit ++
    ", aliases removed " ++ toString t.aliasesRemoved ++
    ", dropped " ++ toString t.entriesDropped)
  r.malformed.forM fun entry => tellLine ("  malformed: " ++ entry.message)

variable [FileAccess m]

/-- The rules that a file configures, or the stock rules. -/
def loadRules (verbose : Bool) : Option String → ActionM m NameRules
  | none => return NameTable.stock.rules
  | some path => do
    let text ← withFile ("read " ++ path) (FileAccess.readText path)
    match NameConfig.read? text with
    | none => throw ("parse " ++ path ++ ": not a configuration of names")
    | some config =>
      let describe (fault : PatternFault) : String :=
        "rules " ++ path ++ ": " ++ fault.field ++ ": not a pattern"
      let table ← getOrFail describe config.table
      tellLog verbose [.debug ("naming rules from " ++ path)]
      return table.rules

/-- The directory of the user's profiles, below the directory for data. -/
def profileDirectory (dataHome : String) : String :=
  Path.join (Path.join dataHome "keybind-chain") "profiles"

/-- The store that a profile is in, and its id there. -/
def openStore (settings : Settings) (verbose : Bool) : ProfilePlace → ActionM m (Store × String)
  | .file path =>
    match Path.stem? path, Path.hasExtension Store.extension path with
    | some id, true =>
      let parent := (Path.parent? path).getD ""
      return (⟨if parent.isEmpty then "." else parent⟩, id)
    | _, _ => throw (path ++ " is not a .json file")
  | .stored id => do
    let some dataHome := settings.dataHome | throw "Could not find user data directory"
    let directory := profileDirectory dataHome
    withFile ("create " ++ directory) (FileAccess.createDirectories directory)
    tellLog verbose [.debug ("store at " ++ directory)]
    return (⟨directory⟩, id)
  | .unnamed => throw "pass --file <PATH> or --id <ID>"

/-- Prints a text or writes it to a file, in a directory that is created if it is missing. -/
def writeOutput (output : Option String) (text : String) : ActionM m Unit := do
  match output with
  | none => printText text
  | some path =>
    let parent := (Path.parent? path).getD ""
    if !parent.isEmpty then
      withFile ("create output dir " ++ parent) (FileAccess.createDirectories parent)
    withFile ("write " ++ path) (FileAccess.writeText path text)
    tellLine ("Wrote " ++ path)

/-! ## Actions -/

/-- The profile under an id, brought up to date, or a new one if there is none. -/
def loadOrCreate (settings : Settings) (verbose : Bool) (store : Store) (id : String) :
    ActionM m Profile := do
  match ← tryStore verbose (store.load id) with
  | .ok d =>
    let n := Migration.normalize settings.now d
    tellLog verbose (n.events.map Migration.Event.entry)
    getOrFail ContractFault.message (Profile.ofDocument n.document)
  | .error (.missing _) =>
    tellLog verbose [.info ("creating profile '" ++ id ++ "'")]
    return .new id settings.now
  | .error fault => throw fault.message

def importInto (settings : Settings) (verbose : Bool) (rules : NameRules) (input : String)
    (profile : ProfilePlace) (environment : Option String) (detectMirrors : Bool) :
    ActionM m Unit := do
  let (store, id) ← openStore settings verbose profile
  let text ← withFile ("read " ++ input) (FileAccess.readText input)
  let options : BindFile.Options := { rules, detectMirrors }
  let file := BindFile.read options text
  tellLog verbose (BindFile.readLog options text)
  file.skipped.forM fun line => tellLine (input ++ ":" ++ line.message)
  let p ← loadOrCreate settings verbose store id
  let environment := environment.getD p.currentEnvironment
  withStore verbose (store.save id (p.importFile environment file settings.now).toDocument)
  tellLog verbose [.info ("merged " ++ toString (Profile.importCount file) ++
    " entries into '" ++ id ++ "' (" ++ environment ++ ")")]

def exportFrom (settings : Settings) (verbose : Bool) (rules : NameRules) (profile : ProfilePlace)
    (environment output : Option String) (header : Bool) : ActionM m Unit := do
  let (store, id) ← openStore settings verbose profile
  let (d, _) ← withStore verbose (store.loadNormalized settings.now id)
  let p ← getOrFail ContractFault.message (Profile.ofDocument d)
  let options : BindFile.WriteOptions := { environment, header, rules, now := settings.now }
  tellLog verbose (BindFile.writeLog options p)
  writeOutput output (← getOrFail BindFile.WriteFault.message (BindFile.write options p))

def upToDate (id : String) : String :=
  "profile '" ++ id ++ "' is up to date"

def normalizeProfile (settings : Settings) (verbose : Bool) (profile : ProfilePlace)
    (mode : NormalizeMode) : ActionM m Unit := do
  let (store, id) ← openStore settings verbose profile
  let d ← withStore verbose (store.load id)
  match mode with
  | .check =>
    if Migration.needsNormalization d then throw ("profile '" ++ id ++ "' needs normalization")
    printLine (upToDate id)
  | .inPlace =>
    match ← withStore verbose (store.loadNormalized settings.now id) with
    | (_, some report) => tellReport report
    | (_, none) => printLine (upToDate id)
  | .print =>
    let n := Migration.normalize settings.now d
    tellLog verbose (n.events.map Migration.Event.entry)
    tellReport n.report
    printLine n.document.text

/-- The commands for the slots that are asked for: the whole tray unless a bound is given. -/
def trayCommands (r : TrayRequest) : Except Command.SpellingFault (List String) :=
  let active : UInt8 := if r.inactive then 0 else 1
  if r.startSlot.isNone && r.endTray.isNone && r.endSlot.isNone then
    match r.backupTray with
    | none => Command.expandTray r.tray active
    | some backup => Command.expandTrayWithBackup r.tray backup active
  else
    let first : Command.TraySlot := ⟨r.tray, r.startSlot.getD 0⟩
    let last : Command.TraySlot := ⟨r.endTray.getD r.tray, r.endSlot.getD 9⟩
    match r.backupTray with
    | none => Command.expandRange first last active
    | some backup => Command.expandRangeWithBackup first last ⟨backup, first.slot⟩ active

/-- What is printed about a chain: its mirrored body, or whether it is one. -/
def mirrorText (chain : String) (detect : Bool) : String :=
  let commands := Chain.split chain
  if detect then
    match Chain.half? commands with
    | some half => "mirrored: " ++ Chain.join half
    | none => "not mirrored"
  else Chain.mirroredBody commands

/-- The commands with their signatures, as a list in JSON. -/
def signaturesText (commands : List String) : String :=
  (Json.Node.array (commands.map fun c => (Command.Signature.ofCommand c).toNode c)).wide

def perform (settings : Settings) (verbose : Bool) (rules : NameRules) : Action → ActionM m Unit
  | .importFile input profile environment detectMirrors =>
    importInto settings verbose rules input profile environment detectMirrors
  | .exportFile profile environment output header =>
    exportFrom settings verbose rules profile environment output header
  | .normalize profile mode => normalizeProfile settings verbose profile mode
  | .classify commands => printLine (signaturesText commands)
  | .mirror chain detect => printLine (mirrorText chain detect)
  | .expandTray request => do
    printLine (Chain.join (← getOrFail Command.SpellingFault.message (trayCommands request)))

/-! ## Command lines -/

def programName : String := "kbchain"

def programVersion : String := "0.2.0"

def usage : String :=
  "Parse, normalize and export keybind chains\n\n" ++
    "Usage: " ++ programName ++ " [OPTIONS] <COMMAND>\n\nCommands: " ++
    ", ".intercalate (actionRules.map ActionRule.name) ++ ", " ++ helpWord ++
    "\n\nOptions: --rules <PATH>, -v, --verbose, -h, --help, -V, --version\n"

/-- Carries out what a command line asks for. -/
def runInvocation (settings : Settings) (i : Invocation) : ActionM m Unit := do
  let rules ← loadRules i.verbose i.rules
  perform settings i.verbose rules i.action

def run (settings : Settings) (arguments : List String) : m Outcome := do
  match Invocation.read arguments with
  | .error .misuse => return ⟨2, { errors := usage }⟩
  | .error .help => return ⟨0, { output := usage }⟩
  | .error .version => return ⟨0, { output := programName ++ " " ++ programVersion ++ "\n" }⟩
  | .ok i =>
    let (result, printed) ← ((runInvocation settings i).run).run {}
    match result with
    | .ok () => return ⟨0, printed⟩
    | .error message =>
      return ⟨1,
        { printed with errors := printed.errors ++ "Error: " ++ Text.quoted message ++ "\n" }⟩

end Keybinds.CommandLine

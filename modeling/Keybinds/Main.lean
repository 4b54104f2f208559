import Keybinds.Clock
import Keybinds.CommandLine.Run
import Std.Time.DateTime.Timestamp

/-!
# The program

Carries out the command line on the files of the machine.
-/

namespace Keybinds

/-- The number that the system has for an error. -/
def errorNumber? : IO.Error → Option Nat
  | .alreadyExists _ n _ | .otherError n _ | .resourceBusy n _ | .resourceVanished n _
  | .unsupportedOperation n _ | .hardwareFault n _ | .unsatisfiedConstraints n _
  | .illegalOperation n _
  | .protocolError n _ | .timeExpired n _ | .interrupted _ n _ | .noFileOrDirectory _ n _
  | .invalidArgument _ n _ | .permissionDenied _ n _ | .resourceExhausted _ n _
  | .inappropriateType _ n _
  | .noSuchThing _ n _ => some n.toNat
  | .unexpectedEof | .userError _ => none

/-- The fault that an error stands for. -/
def faultOf (e : IO.Error) : FileFault :=
  match errorNumber? e with
  | some 2 => .missing
  | some 13 => .denied
  | some 17 => .present
  | some 20 => .notDirectory
  | some 21 => .isDirectory
  | some 36 => .nameTooLong
  | some 39 => .notEmpty
  | _ => .other (toString e)

/-- Gives the error of an operation as its result. -/
def guarded {α : Type} (operation : IO α) : IO (Except FileFault α) := do
  match ← operation.toBaseIO with
  | .ok a => return .ok a
  | .error e => return .error (faultOf e)

def readTextFile (path : String) : IO (Except FileFault String) := do
  match ← guarded (IO.FS.readBinFile path) with
  | .ok bytes =>
    match String.fromUTF8? bytes with
    | some text => return .ok text
    | none => return .error .notText
  | .error fault => return .error fault

/-- Whether a file can be opened, or is kept from it by something else than being missing. -/
def isPresentFile (path : String) : IO Bool := do
  match ← guarded (IO.FS.Handle.mk path .read) with
  | .ok _ => return true
  | .error fault =>
    return !([.missing, .notDirectory, .nameTooLong] : List FileFault).contains fault

instance : FileAccess IO where
  isPresent := isPresentFile
  readText := readTextFile
  writeText path text := guarded (IO.FS.writeFile path text)
  moveFile source target := guarded (IO.FS.rename source target)
  createDirectories path := guarded (IO.FS.createDirAll path)

/-- The directory for the data of the user's programs: the one that is named for it if its path is
absolute, else the usual one below the user's own directory. -/
def dataHome : IO (Option String) := do
  match ← IO.getEnv "XDG_DATA_HOME", ← IO.getEnv "HOME" with
  | some path, home =>
    if path.toList.head? = some '/' then return some path
    else return home.map fun home => Path.join (Path.join home ".local") "share"
  | none, home => return home.map fun home => Path.join (Path.join home ".local") "share"

/-- The text of the present time. -/
def currentTime : IO String := do
  let nanoseconds := (← Std.Time.Timestamp.now).toNanosecondsSinceUnixEpoch.val.toNat
  return (Instant.ofSeconds (nanoseconds / 1000000000) (nanoseconds % 1000000000)).text

end Keybinds

open Keybinds in
def main (arguments : List String) : IO UInt32 := do
  let outcome ← CommandLine.run { now := ← currentTime, dataHome := ← dataHome } arguments
  (← IO.getStdout).putStr outcome.printed.output
  (← IO.getStderr).putStr outcome.printed.errors
  return outcome.code.toUInt32

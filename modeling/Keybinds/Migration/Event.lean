import Keybinds.Log
import Keybinds.Stored.Document
import Keybinds.Version

/-!
# Events of a migration

What happens while a document is brought to the current version. Each event has one log entry; the
malformed entries among the events make up a part of the report.
-/

namespace Keybinds.Migration

/-- An entry that could not be interpreted, by its path in the document. -/
structure Malformed where
  location : String
  reason : String
  deriving DecidableEq, Repr

def Malformed.message (m : Malformed) : String :=
  m.location ++ ": " ++ m.reason

inductive Event where
  | badVersion (tag : String)
  | liftedKeys (count : Nat) (environment : String)
  | malformed (entry : Malformed)
  | droppedNull (location : String)
  | removedAlias (name : String)
  | fixedLoader (name : String)
  | stepDone (version : Version) (name : String) (changed : Bool)
  | guardRewrote
  | newerVersion (version : Version)
  | finished (name : String) (source target : Version) (steps migrated malformed : Nat)
  deriving DecidableEq, Repr

namespace Event

def entry : Event → Log.Entry
  | badVersion tag =>
    .warn ("[normalize] " ++ Version.badMessage tag ++ "; treating profile as unversioned")
  | liftedKeys count environment =>
    .debug ("[normalize] lifting " ++ toString count ++
      " legacy keybinds into '" ++ environment ++ "'")
  | malformed m => .warn ("[normalize] malformed entry " ++ m.message)
  | droppedNull location => .debug ("[normalize] dropping null at " ++ location)
  | removedAlias name => .debug ("[normalize] removing generated alias '" ++ name ++ "'")
  | fixedLoader name => .debug ("[normalize] fixed loader spelling in '" ++ name ++ "'")
  | stepDone version name changed =>
    .debug ("[normalize] step " ++ version.text ++ " (" ++ name ++ "): " ++
      if changed then "changed" else "no change")
  | guardRewrote => .debug "[normalize] shape guard rewrote non-canonical entries"
  | newerVersion version =>
    .warn ("[normalize] profile version " ++ version.text ++ " is newer than " ++
      Version.current.text ++ "; left as-is")
  | finished name source target steps migrated bad =>
    .info ("[normalize] '" ++ name ++ "' " ++ source.text ++ " -> " ++ target.text ++ ": " ++
      toString steps ++ " steps, " ++ toString migrated ++ " migrated, " ++
      toString bad ++ " malformed")

/-- The malformed entry that an event is about. -/
def malformed? : Event → Option Malformed
  | .malformed m => some m
  | _ => none

end Event

/-- The malformed entries among events, in order. -/
def malformedOf (events : List Event) : List Malformed :=
  events.filterMap Event.malformed?

end Keybinds.Migration

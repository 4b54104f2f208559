import Keybinds.Migration.Canonical

/-!
# Tallies

A tally compares two versions of a document, entry by entry. The entries are the keys, named by
environment and key, and the aliases. Top-level keys are entered under the environment that they
will be moved to.
-/

namespace Keybinds.Migration

open Stored (Element Commands Document)

structure Tally where
  /-- Entries whose stored value changed. -/
  itemsMigrated : Nat := 0
  /-- Entries that were not canonical before and are behind. -/
  legacyShapesRemoved : Nat := 0
  /-- Of these, the stored texts that held a separator. -/
  stringsSplit : Nat := 0
  aliasesRemoved : Nat := 0
  /-- Of the entries made canonical, the elements and whole values that gave no command. -/
  entriesDropped : Nat := 0
  deriving DecidableEq, Repr

namespace Tally

def add (a b : Tally) : Tally where
  itemsMigrated := a.itemsMigrated + b.itemsMigrated
  legacyShapesRemoved := a.legacyShapesRemoved + b.legacyShapesRemoved
  stringsSplit := a.stringsSplit + b.stringsSplit
  aliasesRemoved := a.aliasesRemoved + b.aliasesRemoved
  entriesDropped := a.entriesDropped + b.entriesDropped

def sum (tallies : List Tally) : Tally :=
  tallies.foldl add {}

end Tally

/-! ## Entries -/

/-- What counts of an entry. -/
structure Entry where
  canonical : Bool
  commands : Option Commands

def keyId (environment key : String) : String := environment ++ "/" ++ key

def aliasMark : String := "alias:"

/-- The entries of a document. A later entry replaces one of the same name, but a top-level key does
not. -/
def entries (d : Document) : Dict Entry :=
  let bound := d.builds.entries.foldl (fun found (environment, build) =>
    build.keys.entries.foldl (fun found (key, c) =>
      found.insert (keyId environment key) ⟨c.isCanonical, some c⟩) found) ∅
  let environment := legacyEnvironment d
  let lifted := ((d.keys.getD ∅).entries).foldl (fun found (key, c) =>
    found.insertIfNew (keyId environment key) ⟨false, some c⟩) bound
  d.aliases.entries.foldl (fun found (name, a) =>
    found.insert (aliasMark ++ name) ⟨a.isCanonical, a.commands?⟩) lifted

/-! ## Counting -/

/-- Whether an element is a text that holds a separator. -/
def isJoined : Element → Bool
  | .plain s => Chain.hasSeparator s
  | _ => false

/-- The texts of a list that hold a separator. -/
def textsSplit : Option Commands → Nat
  | some (.text s) => if Chain.hasSeparator s then 1 else 0
  | some (.list items) => items.countP isJoined
  | _ => 0

/-- Whether an element is dropped: a text without commands, an object without a command, or anything
else. -/
def isDropped : Element → Bool
  | .plain s => (Chain.split s).isEmpty
  | .rich fields => (Stored.richCommand fields).toOption.isNone
  | .malformed _ => true

def droppedCount : Option Commands → Nat
  | none => 1
  | some (.malformed _) => 1
  | some (.text _) => 0
  | some (.list items) => items.countP isDropped

def sameCommands : Option Commands → Option Commands → Bool
  | none, none => true
  | some a, some b => a.same b
  | _, _ => false

/-- The tally of one entry, which may be gone in the later document. -/
def tallyEntry (id : String) (before : Entry) : Option Entry → Tally
  | none => { aliasesRemoved := if aliasMark.toList.isPrefixOf id.toList then 1 else 0 }
  | some after =>
    let migrated : Tally :=
      { itemsMigrated :=
          if !before.canonical || !sameCommands before.commands after.commands then 1 else 0 }
    if before.canonical || !after.canonical then migrated
    else
      { migrated with
        legacyShapesRemoved := 1
        entriesDropped := droppedCount before.commands
        stringsSplit := textsSplit before.commands }

/-- What changed between two versions of a document. -/
def tally (before after : Document) : Tally :=
  let later := entries after
  .sum ((entries before).entries.map fun (id, entry) => tallyEntry id entry (later.get? id))

end Keybinds.Migration

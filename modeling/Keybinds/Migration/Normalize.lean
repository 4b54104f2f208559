import Keybinds.Migration.Step
import Keybinds.Migration.Tally

/-!
# Normalizing documents

`normalize` brings a document of any age to the current version: it runs the steps that are pending,
makes all shapes canonical once more, and sets the version, unless it is later. If data changed, the
time of the last change is set. `needsNormalization` tells from the document alone whether it would
change.
-/

namespace Keybinds.Migration

open Stored (Document)

/-- The version that a document is read as; one that names none or an unreadable one counts as
unversioned. -/
def readAs (d : Document) : Version :=
  (d.version.bind Version.read?).getD .unversioned

def readAsEvents (d : Document) : List Event :=
  match d.version with
  | none => []
  | some tag => if (Version.read? tag).isSome then [] else [.badVersion tag]

/-! ## Running steps -/

/-- The document behind some steps. -/
def run (steps : List Step) (d : Document) : Document :=
  steps.foldl (fun d step => step.apply d) d

/-- Whether one of the steps changes the document. -/
def runChanges : List Step → Document → Bool
  | [], _ => false
  | step :: rest, d => step.changes d || runChanges rest (step.apply d)

def runEvents : List Step → Document → List Event
  | [], _ => []
  | step :: rest, d =>
    step.events d ++
      .stepDone step.version step.name (step.changes d) :: runEvents rest (step.apply d)

/-! ## Normalizing -/

structure Report where
  /-- The version that the document was read as. -/
  source : Version
  target : Version
  steps : List Step
  /-- Whether a step or the last look at the shapes changed data. -/
  changed : Bool
  tally : Tally
  malformed : List Malformed
  deriving DecidableEq

structure Normalized where
  document : Document
  report : Report
  events : List Event

/-- The text of the version behind the normalization of a document of a version. -/
def versionTag (source : Version) (tag : Option String) : Option String :=
  if source < Version.current then some Version.current.text else tag

/-- Brings a document to the current version, at the given time. -/
def normalize (now : String) (d : Document) : Normalized :=
  let source := readAs d
  let steps := Step.pending source
  let stepped := run steps d
  let changed := runChanges steps d || canonicalizeChanges stepped
  let shaped := canonicalize stepped
  let document :=
    { shaped with
      version := versionTag source shaped.version
      lastModified := if changed then some now else shaped.lastModified }
  let shapeEvents := runEvents steps d ++ canonicalizeEvents stepped
  let malformed := malformedOf shapeEvents
  let tally := tally d document
  let target := source.later .current
  { document
    report := { source, target, steps, changed, tally, malformed }
    events := readAsEvents d ++ shapeEvents ++
      (if canonicalizeChanges stepped then [.guardRewrote] else []) ++
      (if Version.current < source then [.newerVersion source] else []) ++
      [.finished (document.name.getD "") source target steps.length tally.itemsMigrated
        malformed.length] }

/-- Whether a document would change: it is of an earlier version, names a mode, or is not
canonical. -/
def needsNormalization (d : Document) : Bool :=
  (match d.version.bind Version.read? with
    | none => true
    | some v => v < Version.current) ||
    d.mode.isSome || !d.isCanonical

end Keybinds.Migration

import Keybinds.Text.Basic

/-!
# Log entries

Operations that have something to tell return their log entries as data; who calls them decides what
is shown and where.
-/

namespace Keybinds.Log

inductive Level where
  | info
  | warn
  | error
  | debug
  deriving DecidableEq, Repr

/-- The word that a recorded entry starts with. -/
def Level.label : Level → String
  | .info => "INFO"
  | .warn => "WARN"
  | .error => "ERROR"
  | .debug => "DEBUG"

structure Entry where
  level : Level
  text : String
  deriving DecidableEq, Repr

def Entry.info (text : String) : Entry := ⟨.info, text⟩
def Entry.warn (text : String) : Entry := ⟨.warn, text⟩
def Entry.error (text : String) : Entry := ⟨.error, text⟩
def Entry.debug (text : String) : Entry := ⟨.debug, text⟩

/-- An entry as one recorded line: level, colon, space, text. -/
def Entry.line (e : Entry) : String :=
  e.level.label ++ ": " ++ e.text

/-- Whether one of the recorded lines contains `needle`. -/
def mentions (entries : List Entry) (needle : String) : Bool :=
  entries.any fun e => Text.occursIn needle.toList e.line.toList

end Keybinds.Log

import Keybinds.Text.Basic

/-!
# Categories of commands
-/

namespace Keybinds.Command

inductive Category where
  | tray
  | movement
  | combat
  | communication
  | targeting
  | power
  | camera
  | system
  | custom
  deriving DecidableEq, Repr

namespace Category

def all : List Category :=
  [tray, movement, combat, communication, targeting, power, camera, system, custom]

def name : Category → String
  | tray => "tray"
  | movement => "movement"
  | combat => "combat"
  | communication => "communication"
  | targeting => "targeting"
  | power => "power"
  | camera => "camera"
  | system => "system"
  | custom => "custom"

/-- Other words for a category. -/
def synonyms : List (String × Category) :=
  [("chat", communication), ("target", targeting), ("shield", power), ("shields", power)]

/-- The category that a word in lower case names. -/
def ofWord? (word : String) : Option Category :=
  (all.find? fun c => c.name == word) <|> synonyms.lookup word

/-- The category that a text names, in any case and between any blanks. -/
def ofText? (text : String) : Option Category :=
  ofWord? (Text.lower (Text.trim text))

/-- The message about a text that names no category. -/
def unknownMessage (text : String) : String :=
  "unknown command category '" ++ Text.lower (Text.trim text) ++ "'"

end Category

end Keybinds.Command

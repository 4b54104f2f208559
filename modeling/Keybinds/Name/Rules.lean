import Keybinds.Text.Basic

/-!
# Rules for names

A rule for keys and a rule for aliases each say what is wrong with a name, if anything. Readers and
writers of binding files take any `NameRules`. A `NameTable` is the usual way to give them: a length
limit, a test on the text and, for aliases, a list of reserved names. `NameTable.stock` is the table
in use when none is given.
-/

namespace Keybinds

/-- What is wrong with a name. -/
inductive NameFault where
  | empty
  | tooLong (length limit : Nat)
  | invalidCharacters (name : String)
  | reserved (name : String)
  deriving DecidableEq, Repr

def NameFault.message : NameFault → String
  | .empty => "name is empty"
  | .tooLong length limit =>
    "name is " ++ toString length ++ " chars (max " ++ toString limit ++ ")"
  | .invalidCharacters name => "'" ++ name ++ "' contains invalid characters"
  | .reserved name => "'" ++ name ++ "' is a reserved command name"

/-- The fault of a name as a key and as an alias; `none` for a good name. -/
structure NameRules where
  keyFault : String → Option NameFault
  aliasFault : String → Option NameFault

namespace NameRules

def acceptsKey (rules : NameRules) (name : String) : Bool :=
  (rules.keyFault name).isNone

def acceptsAlias (rules : NameRules) (name : String) : Bool :=
  (rules.aliasFault name).isNone

end NameRules

/-! ## Tables -/

/-- Tests and limits that make up rules. Reserved names are in lower case. -/
structure NameTable where
  keyText : String → Bool
  aliasText : String → Bool
  reserved : List String
  maxKeyLength : Nat
  maxAliasLength : Nat

namespace NameTable

/-- A name must hold at least one and at most `limit` characters. -/
def lengthFault (limit : Nat) (name : String) : Option NameFault :=
  if name.length = 0 then some .empty
  else if limit < name.length then some (.tooLong name.length limit)
  else none

def keyFault (table : NameTable) (name : String) : Option NameFault :=
  lengthFault table.maxKeyLength name <|>
    (if table.keyText name then none else some (.invalidCharacters name))

/-- An alias must not shadow a reserved name, in whatever case and after whatever number of plus
signs. -/
def aliasFault (table : NameTable) (name : String) : Option NameFault :=
  lengthFault table.maxAliasLength name <|>
    (if table.aliasText name then none else some (.invalidCharacters name)) <|>
    (if Text.lower (Text.dropPlus name) ∈ table.reserved then some (.reserved name) else none)

def rules (table : NameTable) : NameRules where
  keyFault := table.keyFault
  aliasFault := table.aliasFault

/-! ## The stock table -/

/-- Letters, digits and the marks that keyboards name keys with. -/
def isKeyChar (c : Char) : Bool :=
  c.isAlphanum || "_+-[]\\;',./\x60=~".toList.contains c

def isKeyText (name : String) : Bool :=
  !name.isEmpty && name.toList.all isKeyChar

def isAliasChar (c : Char) : Bool :=
  c.isAlphanum || c == '_'

/-- Letters, digits and underscores, with no digit in front. -/
def isAliasText (name : String) : Bool :=
  !name.isEmpty && name.toList.all isAliasChar && !name.toList.head?.any Char.isDigit

/-- Commands of the game that an alias must not shadow. -/
def gameCommands : List String :=
  ["alias", "bind", "unbind", "bind_load_file", "bind_save_file", "say", "team", "zone", "local",
    "fleet", "tell", "emote", "target", "target_enemy_near", "target_friend_near", "target_self",
    "target_clear", "target_teammate", "fireall", "firephasers", "firetorps", "firephaserstorps",
    "firemines", "power_exec", "stotrayexecbytray", "trayexecbytray", "trayexecbytraywithbackup",
    "throttleadjust", "throttleset", "fullimpulsetoggle", "camreset", "camdist", "camturntoface",
    "combatlog", "screenshot", "gensendmessage", "forward", "backward", "left", "right", "up",
    "down", "turnleft", "turnright", "autoforward"]

def stock : NameTable where
  keyText := isKeyText
  aliasText := isAliasText
  reserved := gameCommands
  maxKeyLength := 32
  maxAliasLength := 50

end NameTable

instance : Inhabited NameRules := ⟨NameTable.stock.rules⟩

end Keybinds

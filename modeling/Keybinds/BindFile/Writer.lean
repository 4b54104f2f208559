import Keybinds.Profile.Basic

/-!
# Writing binding files

A profile's keys in one environment and its aliases are written as a binding file that reads back as
written: a header of comments, one line for each key, and one line for each alias below the lines of
its description. Every chain stands in double quotes, and a stabilized one is mirrored. Names and
commands that would not be read back as they are make the writing fail.
-/

namespace Keybinds.BindFile

/-- Why a command cannot be written. -/
inductive CommandFault where
  | empty
  | lineBreak
  | surroundingBlanks
  | separator
  | reparse
  deriving DecidableEq, Repr

def CommandFault.message : CommandFault → String
  | .empty => "is empty"
  | .lineBreak => "contains a line break"
  | .surroundingBlanks => "has surrounding whitespace"
  | .separator => "contains an unquoted chain separator"
  | .reparse => "does not survive a reparse (unbalanced quotes?)"

/-- Why a profile cannot be written. -/
inductive WriteFault where
  | keyName (name : String)
  | aliasName (name : String)
  | command (owner command : String) (fault : CommandFault)
  deriving DecidableEq, Repr

def WriteFault.message : WriteFault → String
  | .keyName name => "key name '" ++ name ++ "' cannot be written"
  | .aliasName name => "alias name '" ++ name ++ "' cannot be written"
  | .command owner text fault => owner ++ ": command '" ++ text ++ "' " ++ fault.message

/-- What is written and how. -/
structure WriteOptions where
  /-- The environment, the profile's current one unless given. -/
  environment : Option String := none
  header : Bool := true
  rules : NameRules := default
  /-- The time in the header. -/
  now : String

/-! ## Names -/

/-- Whether a name reads back as one word that starts no comment and holds no quote. -/
def isWritable (name : String) : Bool :=
  !name.isEmpty && name.toList.head? != some '#' &&
    !name.toList.any fun c => Text.isBlank c || c == '"' || c == '\''

/-- Words that start a line of another shape than a key's. -/
def keywords : List String := ["alias", "bind", "/bind"]

def checkKeyName (rules : NameRules) (name : String) : Except WriteFault Unit :=
  if !keywords.contains (Text.lower name) && isWritable name && rules.acceptsKey name then .ok ()
  else .error (.keyName name)

def checkAliasName (rules : NameRules) (name : String) : Except WriteFault Unit :=
  if isWritable name && rules.acceptsAlias name then .ok () else .error (.aliasName name)

/-! ## Chains -/

/-- What is wrong with one command of a chain. -/
def commandFault? (command : String) : Option CommandFault :=
  if (Text.trim command).isEmpty then some .empty
  else if command.toList.any fun c => c == '\r' || c == '\n' then some .lineBreak
  else if Text.trim command ≠ command then some .surroundingBlanks
  else if Chain.hasSeparator command then some .separator
  else none

/-- The first command with a fault, and its fault. -/
def firstFault? (chain : List String) : Option (String × CommandFault) :=
  chain.findSome? fun command => (commandFault? command).map (command, ·)

/-- The body of a chain, unless it would be read back as another chain. -/
def writeBody (owner : String) (chain : List String) : Except WriteFault String :=
  match firstFault? chain with
  | some (command, fault) => .error (.command owner command fault)
  | none =>
    let body := Chain.join chain
    if Chain.split body = chain then .ok body
    else .error (.command owner (chain.head?.getD "") .reparse)

/-- The body of a chain as its flag wants it. -/
def writeChain (owner : String) (stabilized : Bool) (chain : List String) :
    Except WriteFault String :=
  writeBody owner (if stabilized then Chain.mirror chain else chain)

/-! ## Lines -/

/-- The mark in the first line of every file. -/
def formatMark : String := "keybind-chain/1"

def headerText (name environment now : String) : String :=
  "# " ++ formatMark ++ "\n" ++ "# profile: " ++ Text.oneLine name ++ "\n" ++
    "# environment: " ++ Text.oneLine environment ++ "\n" ++
    "# generated: " ++ Text.oneLine now ++ "\n"

def keyLine (key body : String) : String :=
  key ++ " \"" ++ body ++ "\"\n"

def aliasLine (name body : String) : String :=
  "alias " ++ name ++ " \"" ++ body ++ "\"\n"

/-- A comment line for each line of a description that is not blank. -/
def descriptionText (description : Option String) : String :=
  let lines := ((description.map fun s => Text.lines s.toList).getD []).map Text.strip
  String.join ((lines.filter (!·.isEmpty)).map fun line => "# " ++ String.ofList line ++ "\n")

/-- The line of a key, empty for an empty chain. -/
def writeKey (rules : NameRules) (p : Profile) (environment key : String) (chain : List String) :
    Except WriteFault String := do
  checkKeyName rules key
  if chain.isEmpty then return ""
  return keyLine key (← writeChain key (p.isKeyStabilized environment key) chain)

/-- The lines of an alias, empty for an empty chain. -/
def writeAlias (rules : NameRules) (p : Profile) (name : String) (a : Alias) :
    Except WriteFault String := do
  checkAliasName rules name
  if a.commands.isEmpty then return ""
  let body ← writeChain name (p.isAliasStabilized name) a.commands
  return descriptionText a.description ++ aliasLine name body

/-! ## Files -/

/-- A blank line in front of a section that has entries. -/
def sectionStart {α : Type} (entries : List α) : String :=
  if entries.isEmpty then "" else "\n"

namespace WriteOptions

def environmentOf (options : WriteOptions) (p : Profile) : String :=
  options.environment.getD p.currentEnvironment

def keysOf (options : WriteOptions) (p : Profile) : List (String × List String) :=
  ((p.keys? (options.environmentOf p)).getD ∅).entries

end WriteOptions

/-- Writes a profile as a binding file. -/
def write (options : WriteOptions) (p : Profile) : Except WriteFault String := do
  let environment := options.environmentOf p
  let keys := options.keysOf p
  let header := if options.header then headerText p.name environment options.now else ""
  let keyTexts ← keys.mapM fun (key, chain) => writeKey options.rules p environment key chain
  let aliasTexts ← p.aliases.entries.mapM fun (name, a) => writeAlias options.rules p name a
  return header ++ sectionStart keys ++ String.join keyTexts ++ sectionStart p.aliases.entries ++
    String.join aliasTexts

/-! ## Log -/

/-- Log entries of a section up to the first entry that cannot be written: one for each empty
chain. -/
def skipLog {α : Type} (ok : String → α → Bool) (note : String → α → Option Log.Entry) :
    List (String × α) → List Log.Entry
  | [] => []
  | (name, a) :: rest =>
    (note name a).toList ++ if ok name a then skipLog ok note rest else []

/-- Whether a name passes and its chain is empty. -/
def emptyNote (word name : String) (check : Except WriteFault Unit) (chain : List String) :
    Option Log.Entry :=
  match check with
  | .ok () =>
    if chain.isEmpty then
      some (.debug ("[serialize] skipping " ++ word ++ "'" ++ name ++ "': empty chain"))
    else none
  | .error _ => none

/-- What the writing of a profile logs, up to the point where it fails. -/
def writeLog (options : WriteOptions) (p : Profile) : List Log.Entry :=
  let environment := options.environmentOf p
  let keys := options.keysOf p
  let keyOk := fun key chain => (writeKey options.rules p environment key chain).toOption.isSome
  let aliasOk := fun name a => (writeAlias options.rules p name a).toOption.isSome
  let keyLog :=
    if keys.isEmpty then [.debug ("[serialize] no keybinds in environment '" ++ environment ++ "'")]
    else
      skipLog keyOk (fun key chain => emptyNote "" key (checkKeyName options.rules key) chain) keys
  let aliasLog :=
    skipLog aliasOk
      (fun name a => emptyNote "alias " name (checkAliasName options.rules name) a.commands)
      p.aliases.entries
  let summary := fun () =>
    [Log.Entry.info ("[serialize] '" ++ p.name ++ "' (" ++ environment ++ "): " ++
      toString (keys.filter fun e => !e.2.isEmpty).length ++ " keybinds, " ++
      toString (p.aliases.entries.filter fun e => !e.2.commands.isEmpty).length ++ " aliases")]
  keyLog ++
    if keys.all fun e => keyOk e.1 e.2 then
      aliasLog ++ if p.aliases.entries.all fun e => aliasOk e.1 e.2 then summary () else []
    else []

end Keybinds.BindFile

import Keybinds.Dict
import Keybinds.Text.Numeral

/-!
# Arguments

A switch is two hyphens and its name, or one hyphen and its letter; letters may be joined. A value
stands behind its switch, as the next argument or in the same one, there behind an equals sign or
directly behind the letter. A value in an argument of its own starts with no hyphen, unless it is
one. Two hyphens alone end the switches. Every other argument is a word. No switch may be given
twice. Arguments are read from left to right, and the first one that is out of place or asks for
help or the version ends the reading; a value or word that is not what it has to be is out of place.
-/

namespace Keybinds.CommandLine

/-- Why the reading of arguments ends early. -/
inductive Stop where
  | misuse
  | help
  | version
  deriving DecidableEq, Repr

/-! ## Values -/

/-- What a value has to be. -/
inductive ValueKind where
  | text
  /-- A text that is not empty. -/
  | path
  /-- A 32-bit number. -/
  | number
  deriving DecidableEq, Repr

/-- The 32-bit number that a value spells; it may have either sign. -/
def readNumber? (value : String) : Option UInt32 := do
  let n ← Text.readSigned? value.toList
  if 0 ≤ n ∧ n < UInt32.size then some (.ofNat n.toNat) else none

def ValueKind.accepts : ValueKind → String → Bool
  | text, _ => true
  | path, value => !value.isEmpty
  | number, value => (readNumber? value).isSome

/-! ## Switches and words -/

/-- What a switch does. -/
inductive Effect where
  | flag
  /-- Wants a value. -/
  | value (kind : ValueKind)
  | stop (reason : Stop)
  deriving DecidableEq, Repr

structure Switch where
  name : String
  letter : Option Char := none
  effect : Effect := .flag
  deriving DecidableEq, Repr

/-- Whether a value may stand with the switch; flags have empty ones. -/
def Switch.accepts (s : Switch) (value : String) : Bool :=
  match s.effect with
  | .value kind => kind.accepts value
  | _ => value.isEmpty

/-- What arguments may be given. -/
structure Grammar where
  switches : List Switch
  /-- What the word behind a number of others has to be, unless it is one too many. -/
  word? : Nat → Option ValueKind := fun _ => none

/-- Arguments that were read. -/
structure Arguments where
  /-- The switches with their values. -/
  given : Dict String := ∅
  words : List String := []
  deriving DecidableEq

namespace Arguments

def enter (args : Arguments) (s : Switch) (value : String) : Except Stop Arguments :=
  if args.given.contains s.name || !s.accepts value then .error .misuse
  else .ok { args with given := args.given.insert s.name value }

def addWord (args : Arguments) (g : Grammar) (word : String) : Except Stop Arguments :=
  if (g.word? args.words.length).any (·.accepts word) then
    .ok { args with words := args.words ++ [word] }
  else .error .misuse

def value? (args : Arguments) (name : String) : Option String :=
  args.given.get? name

def has (args : Arguments) (name : String) : Bool :=
  args.given.contains name

end Arguments

/-! ## Reading -/

/-- Arguments that were read, and the switch whose value is the next argument. -/
abbrev Progress := Arguments × Option Switch

/-- Reads a switch whose value stands behind it in the same argument, if there is one. -/
def readSwitch (args : Arguments) (s : Switch) (attached : Option (List Char)) :
    Except Stop Progress :=
  match s.effect, attached with
  | .flag, none => return (← args.enter s "", none)
  | .value _, none => .ok (args, some s)
  | .value _, some value => return (← args.enter s (String.ofList value), none)
  | .stop reason, none => .error reason
  | _, some _ => .error .misuse

/-- Reads what stands behind two hyphens. -/
def readName (switches : List Switch) (args : Arguments) (cs : List Char) : Except Stop Progress :=
  let name := cs.takeWhile (· != '=')
  let attached := (cs.dropWhile (· != '=')).tail?
  match switches.find? fun s => s.name.toList == name with
  | some s => readSwitch args s attached
  | none => .error .misuse

/-- The value that stands directly behind a letter, if something stands there. -/
def attachedValue? : List Char → Option (List Char)
  | [] => none
  | '=' :: value => some value
  | value => some value

/-- Reads letters that stand behind one hyphen. -/
def readLetters (switches : List Switch) (args : Arguments) : List Char → Except Stop Progress
  | [] => .ok (args, none)
  | c :: cs =>
    match switches.find? fun s => s.letter == some c with
    | none => .error .misuse
    | some s =>
      match s.effect with
      | .value _ => readSwitch args s (attachedValue? cs)
      | _ =>
        match readSwitch args s none with
        | .ok (args, _) => readLetters switches args cs
        | .error reason => .error reason

/-- Whether an argument is no word and no value of its own. -/
def isSwitch (arg : String) : Bool :=
  arg.toList.head? == some '-' && arg != "-"

def readArgument (g : Grammar) (args : Arguments) (arg : String) : Except Stop Progress :=
  match arg.toList with
  | '-' :: '-' :: name => readName g.switches args name
  | '-' :: c :: letters => readLetters g.switches args (c :: letters)
  | _ => return (← args.addWord g arg, none)

/-- Enters an argument as the value of the switch in front of it. -/
def readValue (args : Arguments) (s : Switch) (arg : String) : Except Stop Arguments :=
  if isSwitch arg then .error .misuse else args.enter s arg

/-- Reads all arguments. -/
def readAll (g : Grammar) (args : Arguments) : List String → Except Stop Arguments
  | [] => .ok args
  | arg :: rest =>
    if arg = "--" then rest.foldlM (·.addWord g ·) args
    else
      match readArgument g args arg, rest with
      | .error reason, _ => .error reason
      | .ok (args, none), rest => readAll g args rest
      | .ok (_, some _), [] => .error .misuse
      | .ok (args, some s), value :: rest =>
        match readValue args s value with
        | .ok args => readAll g args rest
        | .error reason => .error reason

/-- Reads arguments up to the first word, which is given with the arguments behind it. -/
def readToWord (g : Grammar) (args : Arguments) :
    List String → Except Stop (Arguments × String × List String)
  | [] => .error .misuse
  | arg :: rest =>
    if arg = "--" then .error .misuse
    else if !isSwitch arg then .ok (args, arg, rest)
    else
      match readArgument g args arg, rest with
      | .error reason, _ => .error reason
      | .ok (args, none), rest => readToWord g args rest
      | .ok (_, some _), [] => .error .misuse
      | .ok (args, some s), value :: rest =>
        match readValue args s value with
        | .ok args => readToWord g args rest
        | .error reason => .error reason

end Keybinds.CommandLine

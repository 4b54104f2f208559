import Keybinds.Chain.Mirror
import Keybinds.Name.Rules
import Keybinds.Text.Basic

/-!
# Lines of a binding file

A line is, in the order in which the shapes are tried:

* blank;
* a comment, from `#` on;
* `alias name "chain"`, also with the chain between `<&` and `&>`;
* `bind key chain` or `/bind key chain`, where the chain need not be quoted;
* `key "chain"`.

The keywords may be in any case. Any other line is skipped for a stated reason.
-/

namespace Keybinds.BindFile

/-- Why a line is skipped. -/
inductive LineFault where
  | unrecognized
  | missingChain
  | unquotedChain
  | emptyChain
  | unterminatedQuote
  | invalidKey (fault : NameFault)
  | invalidAlias (fault : NameFault)
  deriving DecidableEq, Repr

def LineFault.message : LineFault → String
  | .unrecognized => "unrecognized line"
  | .missingChain => "missing command chain"
  | .unquotedChain => "command chain must be quoted"
  | .emptyChain => "command chain is empty"
  | .unterminatedQuote => "missing closing quote"
  | .invalidKey fault => "invalid key name: " ++ fault.message
  | .invalidAlias fault => "invalid alias name: " ++ fault.message

/-- The two kinds of names, each with declarations of its own. -/
inductive Realm where
  | keys
  | aliases
  deriving DecidableEq, Repr

structure Declaration where
  realm : Realm
  name : String
  chain : List String
  deriving DecidableEq, Repr

/-! ## Chains on a line -/

/-- The text between a quote at the start and the same quote at the end. -/
def betweenQuotes? (body : List Char) : Option (List Char) :=
  match body with
  | q :: rest =>
    if (q = '"' ∨ q = '\'') ∧ rest.getLast? = some q then some rest.dropLast else none
  | [] => none

/-- The text of a chain without its outer quoting. -/
def innerText (mayBeBare : Bool) (body : List Char) : Except LineFault (List Char) :=
  if body.isEmpty then .error .missingChain
  else
    match betweenQuotes? body, body with
    | some inner, _ => .ok inner
    | none, '<' :: '&' :: rest =>
      if ['&', '>'].isSuffixOf rest then .ok (rest.take (rest.length - 2))
      else .error .unterminatedQuote
    | none, '"' :: _ => .error .unterminatedQuote
    | none, '\'' :: _ => .error .unterminatedQuote
    | none, _ => if mayBeBare then .ok body else .error .unquotedChain

/-- The commands of a chain as it stands on a line. -/
def readChain (mayBeBare : Bool) (body : List Char) : Except LineFault (List String) := do
  let inner ← innerText mayBeBare body
  match Chain.split (String.ofList inner) with
  | [] => throw .emptyChain
  | chain => pure chain

/-! ## Declarations -/

/-- Refuses a name that the rules find fault with. -/
def checkName (realm : Realm) (rules : NameRules) (name : String) : Except LineFault Unit :=
  match realm with
  | .keys => match rules.keyFault name with
    | some fault => throw (.invalidKey fault)
    | none => pure ()
  | .aliases => match rules.aliasFault name with
    | some fault => throw (.invalidAlias fault)
    | none => pure ()

/-- A declaration whose name and chain follow a keyword. -/
def readAfterKeyword (realm : Realm) (rules : NameRules) (mayBeBare : Bool) (rest : List Char) :
    Except LineFault Declaration := do
  let (name, body) := Text.firstWord rest
  if name.isEmpty then throw .unrecognized
  checkName realm rules (String.ofList name)
  return ⟨realm, String.ofList name, ← readChain mayBeBare body⟩

/-- A declaration on a trimmed line. -/
def readDeclaration (rules : NameRules) (line : List Char) : Except LineFault Declaration := do
  let (head, rest) := Text.firstWord line
  let word := Text.lower (String.ofList head)
  if word = "alias" then readAfterKeyword .aliases rules false rest
  else if word = "bind" ∨ word = "/bind" then readAfterKeyword .keys rules true rest
  else if rest.isEmpty then throw .missingChain
  else
    checkName .keys rules (String.ofList head)
    return ⟨.keys, String.ofList head, ← readChain false rest⟩

/-! ## Lines -/

/-- What a line holds. -/
inductive Line where
  | blank
  | comment (text : String)
  | skipped (fault : LineFault)
  | declaration (declared : Declaration)
  deriving DecidableEq, Repr

/-- Reads a trimmed line. -/
def readTrimmed (rules : NameRules) (line : List Char) : Line :=
  match line with
  | [] => .blank
  | '#' :: _ => .comment (String.ofList line)
  | _ =>
    match readDeclaration rules line with
    | .ok declared => .declaration declared
    | .error fault => .skipped fault

/-- A line without the blanks at its ends; the first line also loses byte order marks in front. -/
def trimLine (number : Nat) (raw : List Char) : List Char :=
  Text.strip (if number = 1 then raw.dropWhile (· == '\uFEFF') else raw)

/-- Reads the line with the given number, counted from one. -/
def readLine (rules : NameRules) (number : Nat) (raw : List Char) : Line :=
  readTrimmed rules (trimLine number raw)

end Keybinds.BindFile

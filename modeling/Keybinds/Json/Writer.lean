import Keybinds.Json.Node

/-!
# Writing JSON

The compact form has no spaces; the wide form puts every item and member on a line of its own, two
spaces deeper than its container, and a space behind each colon. Empty containers stay closed.
Strings escape the quote, the backslash and the control characters below the space, and nothing
else.
-/

namespace Keybinds.Json

/-- One hexadecimal digit, in lower case. -/
def hexChar (n : Nat) : Char := Nat.digitChar (n % 16)

/-- A character as a string holds it. -/
def escape (c : Char) : List Char :=
  match c with
  | '"' => ['\\', '"']
  | '\\' => ['\\', '\\']
  | '\x08' => ['\\', 'b']
  | '\x0c' => ['\\', 'f']
  | '\n' => ['\\', 'n']
  | '\r' => ['\\', 'r']
  | '\t' => ['\\', 't']
  | c =>
    if c.toNat < 0x20 then ['\\', 'u', '0', '0', hexChar (c.toNat / 16), hexChar c.toNat] else [c]

/-- A text as a string; what spells no text is written as the half of a surrogate pair. -/
def writeString : Option String → List Char
  | some s => '"' :: s.toList.flatMap escape ++ ['"']
  | none => "\"\\ud800\"".toList

def writeNumber (n : Number.Numeral) : List Char :=
  n.text ['+']

def writeBool (b : Bool) : List Char :=
  if b then "true".toList else "false".toList

namespace Node

mutual

def writeCompact : Written → List Char
  | .null => "null".toList
  | .bool b => writeBool b
  | .number n => writeNumber n
  | .string s => writeString s
  | .array items => '[' :: writeItems items ++ [']']
  | .object members => '\x7b' :: writeMembers members ++ ['\x7d']

def writeItems : List Written → List Char
  | [] => []
  | [item] => writeCompact item
  | item :: next :: rest => writeCompact item ++ ',' :: writeItems (next :: rest)

def writeMembers : List (Option String × Written) → List Char
  | [] => []
  | [(name, value)] => writeString name ++ ':' :: writeCompact value
  | (name, value) :: next :: rest =>
    writeString name ++ ':' :: writeCompact value ++ ',' :: writeMembers (next :: rest)

end

/-- A line break and the indentation of a depth. -/
def newLine (depth : Nat) : List Char :=
  '\n' :: List.replicate (2 * depth) ' '

mutual

def writeWide (depth : Nat) : Written → List Char
  | .null => "null".toList
  | .bool b => writeBool b
  | .number n => writeNumber n
  | .string s => writeString s
  | .array [] => ['[', ']']
  | .array (item :: rest) =>
    '[' :: writeWideItems (depth + 1) (item :: rest) ++ newLine depth ++ [']']
  | .object [] => ['\x7b', '\x7d']
  | .object (member :: rest) =>
    '\x7b' :: writeWideMembers (depth + 1) (member :: rest) ++ newLine depth ++ ['\x7d']

def writeWideItems (depth : Nat) : List Written → List Char
  | [] => []
  | [item] => newLine depth ++ writeWide depth item
  | item :: next :: rest =>
    newLine depth ++ writeWide depth item ++ ',' :: writeWideItems depth (next :: rest)

def writeWideMembers (depth : Nat) : List (Option String × Written) → List Char
  | [] => []
  | [(name, value)] => newLine depth ++ writeString name ++ ':' :: ' ' :: writeWide depth value
  | (name, value) :: next :: rest =>
    newLine depth ++ writeString name ++ ':' :: ' ' :: writeWide depth value ++
      ',' :: writeWideMembers depth (next :: rest)

end

/-- The text without spaces. -/
def compact (node : Written) : String :=
  String.ofList node.writeCompact

/-- The text with lines and indentation. -/
def wide (node : Written) : String :=
  String.ofList (node.writeWide 0)

end Node

end Keybinds.Json

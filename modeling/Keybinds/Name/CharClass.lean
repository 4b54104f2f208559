import Keybinds.Text.Basic
import Keybinds.Text.Numeral
import Keybinds.Text.Unicode

/-!
# Classes of characters

A class is a set of characters. In a pattern it stands in brackets: single characters, ranges
`a-z`, classes in brackets of their own, and the named classes `\d`, `\s`, `\w` and `[:alpha:]` and
its like. A caret behind the opening bracket takes the complement, and `&&`, `--` and `~~` take the
intersection, the difference and the symmetric difference of what stands on both sides, from left to
right. `CharClass.read?` reads a class.
-/

namespace Keybinds

/-- A set of characters. -/
inductive CharClass where
  | nothing
  | range (first last : Char)
  | digit
  | blank
  | word
  | complement (k : CharClass)
  | union (k l : CharClass)
  | intersection (k l : CharClass)
  deriving DecidableEq, Repr

namespace CharClass

def contains : CharClass → Char → Bool
  | nothing, _ => false
  | range first last, c => first ≤ c && c ≤ last
  | digit, c => Text.isDecimal c
  | blank, c => Text.isBlank c
  | word, c => Text.isWordPart c
  | complement k, c => !k.contains c
  | union k l, c => k.contains c || l.contains c
  | intersection k l, c => k.contains c && l.contains c

def single (c : Char) : CharClass := range c c

/-- Every character but the line feed. -/
def dot : CharClass := complement (single '\n')

def difference (k l : CharClass) : CharClass :=
  intersection k (complement l)

def symmetricDifference (k l : CharClass) : CharClass :=
  union (difference k l) (difference l k)

/-! ## Named classes -/

/-- The union of some ranges. -/
def ofRanges (ranges : List (Char × Char)) : CharClass :=
  ranges.foldr (fun (first, last) k => union (range first last) k) nothing

/-- The classes that stand as `[:name:]` inside brackets; all hold ASCII characters only. -/
def named : List (String × CharClass) := [
  ("alnum", ofRanges [('0', '9'), ('A', 'Z'), ('a', 'z')]),
  ("alpha", ofRanges [('A', 'Z'), ('a', 'z')]),
  ("ascii", ofRanges [('\x00', '\x7f')]),
  ("blank", ofRanges [('\t', '\t'), (' ', ' ')]),
  ("cntrl", ofRanges [('\x00', '\x1f'), ('\x7f', '\x7f')]),
  ("digit", ofRanges [('0', '9')]),
  ("graph", ofRanges [('!', '~')]),
  ("lower", ofRanges [('a', 'z')]),
  ("print", ofRanges [(' ', '~')]),
  ("punct", ofRanges [('!', '/'), (':', '@'), ('[', '\x60'), ('\x7b', '~')]),
  ("space", ofRanges [('\t', '\r'), (' ', ' ')]),
  ("upper", ofRanges [('A', 'Z')]),
  ("word", ofRanges [('0', '9'), ('A', 'Z'), ('_', '_'), ('a', 'z')]),
  ("xdigit", ofRanges [('0', '9'), ('A', 'F'), ('a', 'f')])]

/-- Whether a caret asks for the complement of the class behind it. -/
def readCaret : List Char → (CharClass → CharClass) × List Char
  | '^' :: cs => (complement, cs)
  | cs => (id, cs)

/-- Reads `:name:]` or `:^name:]`. -/
def readNamed? : List Char → Option (CharClass × List Char)
  | ':' :: cs => do
    let (form, cs) := readCaret cs
    let name := cs.takeWhile (· != ':')
    let k ← named.lookup (String.ofList name)
    match cs.drop name.length with
    | ':' :: ']' :: rest => some (form k, rest)
    | _ => none
  | _ => none

/-! ## Escapes -/

/-- A character, or a class that a letter behind a backslash names. -/
inductive Atom where
  | char (c : Char)
  | named (k : CharClass)
  deriving DecidableEq, Repr

def Atom.toClass : Atom → CharClass
  | char c => single c
  | named k => k

/-- A character with the given code. -/
def Atom.ofCode? (code : Nat) : Option Atom :=
  if code.isValidChar then some (.char (Char.ofNat code)) else none

/-- Reads a code point of `width` hexadecimal digits, or of any number of them in braces. -/
def readCode? (width : Nat) : List Char → Option (Atom × List Char)
  | '\x7b' :: cs => do
    let digits := cs.takeWhile (· != '\x7d')
    let atom ← Atom.ofCode? (← Text.readHex? digits)
    match cs.drop digits.length with
    | _ :: rest => some (atom, rest)
    | [] => none
  | cs => do
    let digits := cs.take width
    if digits.length < width then none
    return (← Atom.ofCode? (← Text.readHex? digits), cs.drop width)

/-- Reads what stands behind a backslash. Every ASCII character but the letters, the digits, `<` and
`>` stands for itself there. -/
def readEscape? : List Char → Option (Atom × List Char)
  | [] => none
  | c :: cs =>
    match c with
    | 'd' => some (.named digit, cs)
    | 'D' => some (.named (complement digit), cs)
    | 's' => some (.named blank, cs)
    | 'S' => some (.named (complement blank), cs)
    | 'w' => some (.named word, cs)
    | 'W' => some (.named (complement word), cs)
    | 'a' => some (.char '\x07', cs)
    | 'f' => some (.char '\x0c', cs)
    | 'n' => some (.char '\n', cs)
    | 'r' => some (.char '\r', cs)
    | 't' => some (.char '\t', cs)
    | 'v' => some (.char '\x0b', cs)
    | 'x' => readCode? 2 cs
    | 'u' => readCode? 4 cs
    | 'U' => readCode? 8 cs
    | _ =>
      if c.toNat < 0x80 && !c.isAlphanum && c != '<' && c != '>' then some (.char c, cs) else none

/-! ## Reading -/

def readAtom? : List Char → Option (Atom × List Char)
  | [] => none
  | '\\' :: cs => readEscape? cs
  | c :: cs => some (.char c, cs)

/-- Reads an atom of a class or a range of characters. A hyphen makes no range in front of a closing
bracket or of another hyphen. -/
def readRange? (cs : List Char) : Option (CharClass × List Char) := do
  let (first, rest) ← readAtom? cs
  match rest with
  | '-' :: next =>
    if next.head? = some ']' ∨ next.head? = some '-' then some (first.toClass, rest)
    else
      match first, ← readAtom? next with
      | .char a, (.char b, rest) => if a ≤ b then some (range a b, rest) else none
      | _, _ => none
  | _ => some (first.toClass, rest)

/-- What may stand at the start of a class and would mean something else further on: hyphens, or, if
there are none, a closing bracket. -/
def readStart (cs : List Char) : CharClass × List Char :=
  match cs with
  | ']' :: rest => (single ']', rest)
  | '-' :: _ => (single '-', cs.dropWhile (· == '-'))
  | _ => (nothing, cs)

mutual

/-- Reads a class behind its opening bracket. -/
def readBracket? (fuel : Nat) (cs : List Char) : Option (CharClass × List Char) :=
  match fuel with
  | 0 => none
  | fuel + 1 => do
    let (form, cs) := readCaret cs
    let (items, cs) := readStart cs
    let (k, rest) ← readItems? fuel id items cs
    return (form k, rest)

/-- Reads up to the closing bracket of a class. The `items` are those since the last operator, and
`operate` makes the class of all items behind that operator. -/
def readItems? (fuel : Nat) (operate : CharClass → CharClass) (items : CharClass)
    (cs : List Char) : Option (CharClass × List Char) :=
  match fuel with
  | 0 => none
  | fuel + 1 =>
    match cs with
    | ']' :: rest => some (operate items, rest)
    | '&' :: '&' :: rest => readItems? fuel (intersection (operate items)) nothing rest
    | '-' :: '-' :: rest => readItems? fuel (difference (operate items)) nothing rest
    | '~' :: '~' :: rest => readItems? fuel (symmetricDifference (operate items)) nothing rest
    | '[' :: rest => do
      let (k, rest) ← readNamed? rest <|> readBracket? fuel rest
      readItems? fuel operate (union items k) rest
    | _ => do
      let (k, rest) ← readRange? cs
      readItems? fuel operate (union items k) rest

end

/-- Reads a class behind its opening bracket. Each character is entered by at most two readers,
which bounds the fuel. -/
def read? (cs : List Char) : Option (CharClass × List Char) :=
  readBracket? (2 * cs.length + 2) cs

end CharClass

end Keybinds

import Keybinds.Name.Pattern

/-!
# Written name patterns

How patterns are written: literal characters, `.`, classes in brackets, groups with `|`, the anchors
`^` and `$`, the repetitions `*`, `+`, `?`, `{m}`, `{m,}` and `{m,n}`, and escapes with a backslash.
`Pattern.read?` refuses an unclosed group or class, a repetition of nothing and counts in falling
order.
-/

namespace Keybinds.Pattern

/-! ## Repetitions -/

/-- The largest count of a repetition. -/
def maxCount : Nat := 10000

/-- A count at the start of a text, with blanks around it. -/
def readCount? (cs : List Char) : Option (Nat × List Char) := do
  let cs := Text.stripStart cs
  let digits := cs.takeWhile Char.isDigit
  let n ← Text.readDigits? digits
  if n ≤ maxCount then some (n, Text.stripStart (cs.drop digits.length)) else none

/-- The rest of a repetition behind its opening brace, for the repeated pattern. -/
def readBounds? (p : Pattern) (cs : List Char) : Option (Pattern × List Char) := do
  let (low, rest) ← readCount? cs
  match rest with
  | '\x7d' :: rest => some (p.times low, rest)
  | ',' :: '\x7d' :: rest => some (.seq (p.times low) p.star, rest)
  | ',' :: rest =>
    match ← readCount? rest with
    | (high, '\x7d' :: rest) =>
      if low ≤ high then some (.seq (p.times low) (p.atMost (high - low)), rest) else none
    | _ => none
  | _ => none

/-- What follows a repetition: a question mark there asks for the shortest match, which is found
where any match is found. -/
def afterRepeat : List Char → List Char
  | '?' :: rest => rest
  | cs => cs

/-- Applies the repetitions that follow a pattern; each takes at least one of `fuel` characters. -/
def readRepeats? (fuel : Nat) (p : Pattern) (cs : List Char) : Option (Pattern × List Char) :=
  match fuel, cs with
  | fuel + 1, '*' :: rest => readRepeats? fuel p.star (afterRepeat rest)
  | fuel + 1, '+' :: rest => readRepeats? fuel (.many p) (afterRepeat rest)
  | fuel + 1, '?' :: rest => readRepeats? fuel p.optional (afterRepeat rest)
  | fuel + 1, '\x7b' :: rest => do
    let (p, rest) ← readBounds? p rest
    readRepeats? fuel p (afterRepeat rest)
  | _, cs => some (p, cs)

/-! ## Expressions -/

/-- Reads what stands behind a backslash. -/
def readEscape? : List Char → Option (Pattern × List Char)
  | 'A' :: rest => some (.start, rest)
  | 'z' :: rest => some (.stop, rest)
  | cs => (CharClass.readEscape? cs).map fun (atom, rest) => (.one atom.toClass, rest)

/-- What is inside a group behind its opening parenthesis: a question mark and a colon only say that
the group is not to be numbered. -/
def insideGroup : List Char → List Char
  | '?' :: ':' :: cs => cs
  | cs => cs

mutual

/-- Alternatives up to a closing parenthesis or the end. -/
def readEither? (fuel : Nat) (cs : List Char) : Option (Pattern × List Char) :=
  match fuel with
  | 0 => none
  | fuel + 1 => do
    let (p, rest) ← readSequence? fuel cs
    match rest with
    | '|' :: rest =>
      let (q, rest) ← readEither? fuel rest
      some (.either p q, rest)
    | _ => some (p, rest)

/-- Repeated parts in a row, up to a bar, a closing parenthesis or the end. -/
def readSequence? (fuel : Nat) (cs : List Char) : Option (Pattern × List Char) :=
  match fuel with
  | 0 => none
  | fuel + 1 =>
    match cs with
    | [] => some (.empty, [])
    | '|' :: _ => some (.empty, cs)
    | ')' :: _ => some (.empty, cs)
    | _ => do
      let (p, rest) ← readPart? fuel cs
      let (p, rest) ← readRepeats? rest.length p rest
      let (q, rest) ← readSequence? fuel rest
      some (.seq p q, rest)

/-- One part before its repetitions. -/
def readPart? (fuel : Nat) (cs : List Char) : Option (Pattern × List Char) :=
  match fuel with
  | 0 => none
  | fuel + 1 =>
    match cs with
    | [] => none
    | '(' :: rest => do
      let (p, rest) ← readEither? fuel (insideGroup rest)
      match rest with
      | ')' :: rest => some (p, rest)
      | _ => none
    | '[' :: rest => (CharClass.read? rest).map fun (k, rest) => (.one k, rest)
    | '.' :: rest => some (.one .dot, rest)
    | '^' :: rest => some (.start, rest)
    | '$' :: rest => some (.stop, rest)
    | '*' :: _ | '+' :: _ | '?' :: _ | '\x7b' :: _ => none
    | '\\' :: rest => readEscape? rest
    | c :: rest => some (.one (.single c), rest)

end

/-- Reads a whole pattern. Each level of the grammar is entered at most once for a character, which
bounds the fuel. -/
def read? (s : String) : Option Pattern := do
  let cs := s.toList
  let (p, rest) ← readEither? (3 * cs.length + 3) cs
  if rest.isEmpty then some p else none

end Keybinds.Pattern

import Keybinds.Text.Basic

/-!
# Cutting chain bodies

A chain body is a run of commands with `$$` between them. A separator counts only outside of quotes.

* A double quote opens a region anywhere; a single quote only where a word starts, so `don't` holds
  none.
* A backslash takes away the meaning of the next character, inside and outside of quotes.
* A doubled quote is an empty string, unless a word follows it at once and the same pair occurs
  again later: then it opens a region that the next such pair closes.

`scan` cuts a body at its separators; `split` keeps the trimmed parts that are not empty.
-/

namespace Keybinds.Chain

/-- Where a position stands with regard to quotes; a mark is the letter, of whatever alphabet, that
a region ends with. -/
inductive Quoting (α : Type) where
  | outside
  | quoted (mark : α)
  | doubled (mark : α)
  deriving DecidableEq, Repr

/-- The untrimmed parts between separators, and whether the text ends inside of quotes. -/
structure Scan where
  parts : List (List Char)
  unterminated : Bool
  deriving DecidableEq, Repr

namespace Scan

/-- The scan of a text that one more character of the first part precedes. -/
def cons (c : Char) (s : Scan) : Scan :=
  { s with parts := s.parts.modifyHead (c :: ·) }

/-- The scan of a text that a separator precedes. -/
def afterSeparator (s : Scan) : Scan :=
  { s with parts := [] :: s.parts }

/-- The number of separators. -/
def separators (s : Scan) : Nat :=
  s.parts.length - 1

end Scan

/-- Whether `c` opens a region outside of quotes. -/
def opensRegion (wordStart : Bool) (c : Char) : Bool :=
  c == '"' || (c == '\'' && wordStart)

/-- Whether a word follows at once: neither the end, nor an ASCII blank, nor a quote. -/
def wordFollows : List Char → Bool
  | [] => false
  | c :: _ => !Text.isAsciiBlank c && c != '"' && c != '\''

/-- The state after a pair of quotes, by what follows it. -/
def afterPair (mark : Char) (rest : List Char) : Quoting Char :=
  if wordFollows rest && Text.occursIn [mark, mark] rest then .doubled mark else .outside

/-- The state after a character that neither escapes nor belongs to a pair. -/
def afterSingle (state : Quoting Char) (wordStart : Bool) (c : Char) : Quoting Char :=
  match state with
  | .outside => if opensRegion wordStart c then .quoted c else .outside
  | .quoted mark => if c = mark then .outside else .quoted mark
  | .doubled mark => .doubled mark

/-- Scans from a state; `wordStart` tells whether a word may start here. -/
def scanFrom (state : Quoting Char) (wordStart : Bool) : List Char → Scan
  | [] => ⟨[[]], state != .outside⟩
  | [c] => ⟨[[c]], (if c = '\\' then state else afterSingle state wordStart c) != .outside⟩
  | c :: d :: rest =>
    if c = '\\' then ((scanFrom state (Text.isAsciiBlank d) rest).cons d).cons c
    else if state = .outside ∧ opensRegion wordStart c ∧ d = c then
      ((scanFrom (afterPair c rest) false rest).cons d).cons c
    else if state = .outside ∧ c = '$' ∧ d = '$' then (scanFrom .outside true rest).afterSeparator
    else if state = .doubled c ∧ d = c then ((scanFrom .outside false rest).cons d).cons c
    else (scanFrom (afterSingle state wordStart c) (Text.isAsciiBlank c) (d :: rest)).cons c

/-- Cuts a body at every separator outside of quotes. -/
def scan (body : String) : Scan :=
  scanFrom .outside true body.toList

/-! ## Commands -/

/-- The trimmed parts that are not empty: the commands of a body. -/
def split (body : String) : List String :=
  ((scan body).parts.map fun part => String.ofList (Text.strip part)).filter (!·.isEmpty)

/-- Whether a separator stands outside of quotes. -/
def hasSeparator (command : String) : Bool :=
  0 < (scan command).separators

/-- A command as a chain holds it: not empty, trimmed, and without a separator outside of quotes. -/
def isCanonical (command : String) : Bool :=
  !command.isEmpty && Text.trim command == command && !hasSeparator command

/-- The separator as it is written between two commands. -/
def writtenSeparator : String := " $$ "

/-- The commands with a written separator between each two. -/
def join (commands : List String) : String :=
  writtenSeparator.intercalate commands

end Keybinds.Chain

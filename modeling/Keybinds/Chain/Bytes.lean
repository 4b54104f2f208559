import Keybinds.Chain.Scan

/-!
# Cutting encoded chain bodies

The scan of a chain body over the bytes of its UTF-8 form, by offsets. Every character that matters
is one byte, so a body is never cut inside of a character, although a backslash steps over a single
byte. A byte beyond the end is asked for with `[i]?` only, so no offset is out of range.
-/

namespace Keybinds.Chain

/-- The parts of an encoded body, each from its first offset to the one behind its last, and whether
the body ends inside of quotes. -/
structure ByteScan where
  bounds : List (Nat × Nat)
  unterminated : Bool
  deriving DecidableEq, Repr

namespace ByteScan

/-- The bytes of each part. -/
def parts (s : ByteScan) (bytes : ByteArray) : List ByteArray :=
  s.bounds.map fun (first, last) => bytes.extract first last

/-- The number of separators. -/
def separators (s : ByteScan) : Nat :=
  s.bounds.length - 1

end ByteScan

/-- The byte of an ASCII character. -/
def byte (c : Char) : UInt8 := c.toNat.toUInt8

/-- Space, tab, line feed, form feed and carriage return. -/
def isBlankByte (b : UInt8) : Bool :=
  b == byte ' ' || b == byte '\t' || b == byte '\n' || b == byte '\x0c' || b == byte '\r'

/-- Whether a part that began at `start` may start a word at offset `i`. -/
def wordStartsAt (bytes : ByteArray) (start i : Nat) : Bool :=
  i == start || bytes[i - 1]?.any isBlankByte

/-- Whether a word follows at offset `i`. -/
def wordFollowsAt (bytes : ByteArray) (i : Nat) : Bool :=
  bytes[i]?.any fun b => !isBlankByte b && b != byte '"' && b != byte '\''

/-- Whether two adjacent bytes from offset `i` on equal `mark`. -/
def pairOccursFrom (bytes : ByteArray) (mark : UInt8) (i : Nat) : Bool :=
  if i < bytes.size then
    (bytes[i]? == some mark && bytes[i + 1]? == some mark) || pairOccursFrom bytes mark (i + 1)
  else false
termination_by bytes.size - i

/-- Scans from offset `i` in a part that began at `start`. -/
def scanBytesFrom (bytes : ByteArray) (state : Quoting UInt8) (start i : Nat) : ByteScan :=
  if h : i < bytes.size then
    let c := bytes[i]
    let pair := bytes[i + 1]? == some c
    if c = byte '\\' then scanBytesFrom bytes state start (i + 2)
    else
      match state with
      | .outside =>
        if c = byte '"' ∨ (c = byte '\'' ∧ wordStartsAt bytes start i) then
          if pair then
            let opens := wordFollowsAt bytes (i + 2) && pairOccursFrom bytes c (i + 2)
            scanBytesFrom bytes (if opens then .doubled c else .outside) start (i + 2)
          else scanBytesFrom bytes (.quoted c) start (i + 1)
        else if c = byte '$' ∧ pair then
          let rest := scanBytesFrom bytes .outside (i + 2) (i + 2)
          { rest with bounds := (start, i) :: rest.bounds }
        else scanBytesFrom bytes .outside start (i + 1)
      | .quoted mark =>
        scanBytesFrom bytes (if c = mark then .outside else .quoted mark) start (i + 1)
      | .doubled mark =>
        if c = mark ∧ pair then scanBytesFrom bytes .outside start (i + 2)
        else scanBytesFrom bytes (.doubled mark) start (i + 1)
  else ⟨[(start, bytes.size)], state != .outside⟩
termination_by bytes.size - i

/-- Cuts an encoded body at every separator outside of quotes. -/
def scanBytes (bytes : ByteArray) : ByteScan :=
  scanBytesFrom bytes .outside 0 0

end Keybinds.Chain

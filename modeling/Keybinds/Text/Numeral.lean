/-!
# Numerals

Whole numbers in decimal digits: any number of digits, leading zeros allowed. A reader of unsigned
numbers accepts one leading `+`; a reader of signed numbers accepts one leading `+` or `-`. A number
outside of the reader's range is no numeral. `readHex?` reads hexadecimal digits of either case.
-/

namespace Keybinds.Text

/-- The value of one or more decimal digits. -/
def readDigits? (cs : List Char) : Option Nat :=
  if !cs.isEmpty && cs.all Char.isDigit then some (Nat.ofDigitChars 10 cs 0) else none

/-- The number below `bound` that the digits spell, after an optional `+`. -/
def readUnsigned? (bound : Nat) (cs : List Char) : Option Nat :=
  let digits := match cs with
    | '+' :: rest => rest
    | _ => cs
  (readDigits? digits).filter (· < bound)

/-- The number that the digits spell, after an optional sign. -/
def readSigned? (cs : List Char) : Option Int :=
  match cs with
  | '-' :: rest => (readDigits? rest).map fun n => -(n : Int)
  | '+' :: rest => (readDigits? rest).map Int.ofNat
  | _ => (readDigits? cs).map Int.ofNat

/-- The 32-bit number that the text spells. -/
def readUInt32? (cs : List Char) : Option UInt32 :=
  (readUnsigned? UInt32.size cs).map UInt32.ofNat

/-! ## Hexadecimal digits -/

def hexDigit? (c : Char) : Option Nat :=
  if c.isDigit then some (c.toNat - '0'.toNat)
  else if 'a' ≤ c ∧ c ≤ 'f' then some (c.toNat - 'a'.toNat + 10)
  else if 'A' ≤ c ∧ c ≤ 'F' then some (c.toNat - 'A'.toNat + 10)
  else none

/-- The value of one or more hexadecimal digits. -/
def readHex? (cs : List Char) : Option Nat :=
  if cs.isEmpty then none else cs.foldlM (fun n c => (hexDigit? c).map (16 * n + ·)) 0

/-! ## Writing -/

/-- The decimal digits of a number, without leading zeros. -/
def digits (n : Nat) : List Char :=
  Nat.toDigits 10 n

end Keybinds.Text

import Keybinds.Number.Binary
import Keybinds.Text.Numeral

/-!
# Decimal numerals

A numeral is a written number: a sign, digits before and after the point, and a power of ten.
`Numeral.round` gives the nearest number of a binary format. `readAmount?` reads the numerals that a
command's argument may hold: a sign is optional, and so are the digits on one side of the point.
-/

namespace Keybinds.Number

/-- A decimal number as it is written. -/
structure Numeral where
  negative : Bool
  whole : List Char
  fraction : List Char
  exponent : Option Int
  deriving DecidableEq, Repr

namespace Numeral

/-- The digits without the point. -/
def coefficient (n : Numeral) : Nat :=
  Nat.ofDigitChars 10 (n.whole ++ n.fraction) 0

/-- The power of ten that the coefficient is multiplied by. -/
def scale (n : Numeral) : Int :=
  n.exponent.getD 0 - n.fraction.length

end Numeral

/-- From this power of ten on every number of a format is infinite, and below its reciprocal nearer
to zero than to the unit. -/
def farthest : Int := 400

/-- The number nearest to `coefficient * 10 ^ scale`. -/
def roundDecimal {f : Format} (negative : Bool) (coefficient : Nat) (scale : Int) : Binary f :=
  let size : Int := (Text.digits coefficient).length + scale
  if coefficient = 0 ∨ size < -farthest then ⟨negative, 0⟩
  else if farthest < size then ⟨negative, f.infinity⟩
  else if 0 ≤ scale then .ofQuotient negative (coefficient * Nat.pow 10 scale.toNat) 1
  else .ofQuotient negative coefficient (Nat.pow 10 (-scale).toNat)

/-- The number of a format nearest to a numeral. -/
def Numeral.round {f : Format} (n : Numeral) : Binary f :=
  roundDecimal n.negative n.coefficient n.scale

/-- The text of a numeral; `plus` stands before an exponent that is not negative. -/
def Numeral.text (plus : List Char) (n : Numeral) : List Char :=
  (if n.negative then ['-'] else []) ++ n.whole ++
    (if n.fraction.isEmpty then [] else '.' :: n.fraction) ++
    match n.exponent with
    | none => []
    | some e =>
      'e' :: (if e < 0 then '-' :: Text.digits (-e).toNat else plus ++ Text.digits e.toNat)

/-! ## Amounts -/

/-- A sign and what follows it. -/
def splitSign : List Char → Bool × List Char
  | '-' :: rest => (true, rest)
  | '+' :: rest => (false, rest)
  | cs => (false, cs)

/-- The exponent that ends a numeral, if any. -/
def readExponent? : List Char → Option (Option Int)
  | [] => some none
  | c :: rest => if c = 'e' ∨ c = 'E' then (Text.readSigned? rest).map some else none

/-- Reads a numeral with an optional sign and with digits on at least one side of the point. -/
def readNumeral? (cs : List Char) : Option Numeral := do
  let (negative, rest) := splitSign cs
  let whole := rest.takeWhile Char.isDigit
  let rest := rest.drop whole.length
  let (fraction, rest) := match rest with
    | '.' :: rest => (rest.takeWhile Char.isDigit, rest.dropWhile Char.isDigit)
    | _ => ([], rest)
  if whole.isEmpty && fraction.isEmpty then none
  else return ⟨negative, whole, fraction, ← readExponent? rest⟩

/-- The finite number nearest to a numeral. -/
def readFinite? {f : Format} (cs : List Char) : Option (Binary f) :=
  ((readNumeral? cs).map Numeral.round).filter Binary.isFinite

end Keybinds.Number

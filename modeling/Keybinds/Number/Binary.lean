/-!
# Binary numbers

Numbers of a binary floating-point format, kept as a sign and the bits below it. The least positive
number of a format is its unit; every finite number is a whole number of units (`Binary.units`), so
rounding and arithmetic are exact arithmetic on natural numbers. Rounding goes to the nearest
number, and from the middle of two to the one with the even significand.
-/

namespace Keybinds.Number

/-- The bits of a significand, the leading one included, and of an exponent. -/
structure Format where
  precision : Nat
  exponentBits : Nat
  deriving DecidableEq, Repr

namespace Format

def single : Format := ⟨24, 8⟩
def double : Format := ⟨53, 11⟩

/-- The least positive number of the format is the reciprocal of this power of two. -/
def unitPower (f : Format) : Nat :=
  (1 <<< (f.exponentBits - 1)) + f.precision - 3

/-- The units in one. -/
def one (f : Format) : Nat := 1 <<< f.unitPower

/-- The significand with the leading bit alone. -/
def leading (f : Format) : Nat := 1 <<< (f.precision - 1)

/-- The magnitude that stands for infinity. -/
def infinity (f : Format) : Nat :=
  ((1 <<< f.exponentBits) - 1) * f.leading

/-- The units of a finite magnitude. -/
def unitsOf (f : Format) (magnitude : Nat) : Nat :=
  let exponent := magnitude / f.leading
  let fraction := magnitude % f.leading
  if exponent = 0 then fraction else (fraction + f.leading) <<< (exponent - 1)

end Format

/-- The whole number nearest to a quotient; from the middle of two, the even one. -/
def roundQuotient (num den : Nat) : Nat :=
  let q := num / den
  let r := num % den
  if 2 * r < den ∨ (2 * r = den ∧ q % 2 = 0) then q else q + 1

/-- The magnitude nearest to a quotient of units. A significand that rounds up to the next power of
two carries into the exponent by itself. -/
def Format.nearest (f : Format) (num den : Nat) : Nat :=
  let shift := (num / den).log2 + 1 - f.precision
  min (shift * f.leading + roundQuotient num (den <<< shift)) f.infinity

/-- A number of the format `f`. It is finite if its magnitude is less than that of infinity. -/
structure Binary (f : Format) where
  negative : Bool
  magnitude : Nat
  deriving DecidableEq, Repr

abbrev Single := Binary .single
abbrev Double := Binary .double

namespace Binary

variable {f g : Format}

def isFinite (x : Binary f) : Bool := x.magnitude < f.infinity

def isInfinite (x : Binary f) : Bool := x.magnitude == f.infinity

def isZero (x : Binary f) : Bool := x.magnitude == 0

/-- A finite number's distance from zero, in units. -/
def units (x : Binary f) : Nat := f.unitsOf x.magnitude

/-- The number nearest to a quotient. -/
def ofQuotient (negative : Bool) (num den : Nat) : Binary f :=
  ⟨negative, f.nearest (num * f.one) den⟩

def ofNat (n : Nat) : Binary f := ofQuotient false n 1

def ofInt (n : Int) : Binary f := ofQuotient (n < 0) n.natAbs 1

def neg (x : Binary f) : Binary f := { x with negative := !x.negative }

/-- The number of another format that is nearest. -/
def convert (x : Binary f) : Binary g :=
  if x.isFinite then ofQuotient x.negative x.units f.one else ⟨x.negative, g.infinity⟩

/-- The number nearest to the product of two finite numbers. -/
def mul (x y : Binary f) : Binary f :=
  ofQuotient (x.negative != y.negative) (x.units * y.units) (f.one * f.one)

/-- The number nearest to the quotient of two finite numbers, the second not zero. -/
def div (x y : Binary f) : Binary f :=
  ofQuotient (x.negative != y.negative) x.units y.units

/-- Equality as numbers: the two zeros are equal. -/
def same (x y : Binary f) : Bool :=
  x == y || (x.isZero && y.isZero)

end Binary

end Keybinds.Number

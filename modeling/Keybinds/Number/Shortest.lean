import Keybinds.Number.Numeral

/-!
# Shortest decimals

The decimal that a binary number is written as has the fewest digits among those that read back as
the number and, of these, is nearest to it. The search tries one digit, two digits and so on; on
each decimal grid it tries the two neighbours of the number, the nearer one first. A neighbour is
taken only if `roundDecimal` gives the number back, and when no grid has one the exact decimal is
taken.
-/

namespace Keybinds.Number

/-- Which neighbour comes first when the number lies in the middle of them. -/
inductive Tie where
  | toEven
  | up
  deriving DecidableEq, Repr

/-- The number of digits before the point of `num / den`, or less the zeros after the point. -/
def leadingPlace (num den : Nat) : Int :=
  if den ≤ num then (Text.digits (num / den)).length
  else
    let zeros := (den - 1) / num
    if zeros = 0 then 1 else 1 - ((Text.digits zeros).length : Int)

/-- The two whole numbers around `num / den`, the nearer one first. -/
def neighbours (tie : Tie) (num den : Nat) : List Nat :=
  let q := num / den
  let r := 2 * (num % den)
  let upFirst := den < r ∨ (r = den ∧ (tie = .up ∨ q % 2 = 1))
  if upFirst then [q + 1, q] else [q, q + 1]

/-- The candidates with `count` digits for `num / den`, as coefficients with one power of ten. -/
def candidates (tie : Tie) (num den : Nat) (count : Nat) : List (Nat × Int) :=
  let scale := leadingPlace num den - count
  let around :=
    if 0 ≤ scale then neighbours tie num (den * Nat.pow 10 scale.toNat)
    else neighbours tie (num * Nat.pow 10 (-scale).toNat) den
  around.map (·, scale)

/-- A coefficient and power of ten for a finite number that is not zero. -/
def shortestDecimal (f : Format) (tie : Tie) (magnitude : Nat) : Nat × Int :=
  let units := f.unitsOf magnitude
  let grids := (List.range f.precision).flatMap fun count => candidates tie units f.one (count + 1)
  let readsBack := fun (c, scale) => (roundDecimal (f := f) false c scale).magnitude = magnitude
  (grids.find? readsBack).getD (units * Nat.pow 5 f.unitPower, -f.unitPower)

/-! ## Layout -/

/-- How the decimal of a number is laid out. -/
structure Layout where
  tie : Tie
  /-- Whether a number is written without an exponent, by the power of ten of its first digit. -/
  positional : Int → Bool
  /-- Whether whole numbers without an exponent end in `.0`. -/
  pointZero : Bool

/-- Digits with the point behind the place of the first digit's power of ten. -/
def placePoint (pointZero : Bool) (digits : List Char) (power : Int) : List Char × List Char :=
  if power < 0 then (['0'], List.replicate (-power - 1).toNat '0' ++ digits)
  else
    let places := (power + 1).toNat
    let whole := digits.take places ++ List.replicate (places - digits.length) '0'
    let fraction := digits.drop places
    (whole, if fraction.isEmpty && pointZero then ['0'] else fraction)

/-- The digits of a coefficient without the zeros at its end, and the power of ten of its first
digit. -/
def significantDigits (c : Nat) (scale : Int) : List Char × Int :=
  let digits := Text.digits c
  ((digits.reverse.dropWhile (· == '0')).reverse, digits.length + scale - 1)

/-- The numeral that a finite number is written as. -/
def Layout.write {f : Format} (layout : Layout) (x : Binary f) : Numeral :=
  if x.isZero then ⟨x.negative, ['0'], if layout.pointZero then ['0'] else [], none⟩
  else
    let (c, scale) := shortestDecimal f layout.tie x.magnitude
    let (digits, power) := significantDigits c scale
    if layout.positional power then
      let (whole, fraction) := placePoint layout.pointZero digits power
      ⟨x.negative, whole, fraction, none⟩
    else ⟨x.negative, digits.take 1, digits.drop 1, some power⟩

end Keybinds.Number

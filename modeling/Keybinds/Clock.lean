import Keybinds.Text.Numeral

/-!
# Instants

Points of time in universal time, written as `2001-02-03T04:05:06.789+00:00`. The fraction has
three, six or nine digits, as few as it needs, or is missing.
-/

namespace Keybinds

structure Instant where
  year : Nat
  month : Nat
  day : Nat
  hour : Nat
  minute : Nat
  second : Nat
  nanosecond : Nat
  deriving DecidableEq, Repr

namespace Instant

/-- A number with zeros in front up to a width. -/
def padded (width n : Nat) : String :=
  let digits := Text.digits n
  String.ofList (List.replicate (width - digits.length) '0' ++ digits)

def fractionText (nanosecond : Nat) : String :=
  if nanosecond = 0 then ""
  else if nanosecond % 1000000 = 0 then "." ++ padded 3 (nanosecond / 1000000)
  else if nanosecond % 1000 = 0 then "." ++ padded 6 (nanosecond / 1000)
  else "." ++ padded 9 nanosecond

def text (t : Instant) : String :=
  padded 4 t.year ++ "-" ++ padded 2 t.month ++ "-" ++ padded 2 t.day ++ "T" ++
    padded 2 t.hour ++ ":" ++ padded 2 t.minute ++ ":" ++ padded 2 t.second ++
    fractionText t.nanosecond ++ "+00:00"

/-! ## Reading -/

/-- The nanoseconds of a fraction of a second; digits behind the ninth do not count. -/
def readFraction? (digits : List Char) : Option Nat :=
  if digits.isEmpty then none else Text.readDigits? ((digits ++ List.replicate 9 '0').take 9)

/-- How a time in universal time may end. -/
def isZone (cs : List Char) : Bool :=
  cs = ['Z'] || cs = ['z'] || cs = "+00:00".toList || cs = "-00:00".toList

/-- Reads `YYYY-MM-DDThh:mm:ss`, a fraction if there is one, and the zone. Between day and hour a
small letter or a space may stand, too. -/
def read? (s : String) : Option Instant := do
  let cs := s.toList
  let part := fun first count => Text.readDigits? ((cs.drop first).take count)
  let marks := [4, 7, 13, 16].map fun i => cs[i]?
  if marks != ['-', '-', ':', ':'].map some then none
  if !(cs[10]?.any fun c => c == 'T' || c == 't' || c == ' ') then none
  let nanosecond ← match cs.drop 19 with
    | '.' :: rest =>
      let digits := rest.takeWhile Char.isDigit
      if isZone (rest.drop digits.length) then readFraction? digits else none
    | zone => if isZone zone then some 0 else none
  return {
    year := ← part 0 4
    month := ← part 5 2
    day := ← part 8 2
    hour := ← part 11 2
    minute := ← part 14 2
    second := ← part 17 2
    nanosecond }

/-! ## Counting seconds -/

def isLeap (year : Nat) : Bool :=
  year % 4 == 0 && (year % 100 != 0 || year % 400 == 0)

def yearLength (year : Nat) : Nat := if isLeap year then 366 else 365

def monthLength (year month : Nat) : Nat :=
  if month = 2 then (if isLeap year then 29 else 28)
  else if month ∈ [4, 6, 9, 11] then 30
  else 31

/-- The year in which a day lies that is counted from the first of January of `year`, and the day in
it. -/
def findYear (fuel year day : Nat) : Nat × Nat :=
  match fuel with
  | 0 => (year, day)
  | fuel + 1 =>
    if day < yearLength year then (year, day) else findYear fuel (year + 1) (day - yearLength year)

/-- The month in which a day of a year lies, and the day in it, both from one on. -/
def findMonth (fuel year month day : Nat) : Nat × Nat :=
  match fuel with
  | 0 => (month, day + 1)
  | fuel + 1 =>
    if day < monthLength year month then (month, day + 1)
    else findMonth fuel year (month + 1) (day - monthLength year month)

/-- The instant that many seconds and nanoseconds after the start of 1970. -/
def ofSeconds (seconds nanosecond : Nat) : Instant :=
  let day := seconds / 86400
  let rest := seconds % 86400
  let (year, dayOfYear) := findYear (day / 365 + 1) 1970 day
  let (month, dayOfMonth) := findMonth 12 year 1 dayOfYear
  { year, month, day := dayOfMonth, hour := rest / 3600, minute := rest / 60 % 60,
    second := rest % 60, nanosecond }

end Instant

end Keybinds

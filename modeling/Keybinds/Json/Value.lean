import Keybinds.Dict
import Keybinds.Json.Node
import Keybinds.Number.Shortest

/-!
# JSON values

A `Value` is what a JSON text means: its strings are texts, its numbers are whole numbers or
doubles, and of several members with one name the last counts, in the place of the first. A numeral
without point and exponent that fits 64 bits is a whole number. Any other is a double, computed from
the leading digits that fit 64 bits with one multiplication or division by a power of ten; a numeral
that would be infinite means nothing, nor does a value with more than `deepest` containers inside
each other.
-/

namespace Keybinds.Json

open Number (Double Numeral Binary)

/-- A whole number or a double. -/
inductive Numeric where
  | int (n : Int)
  | real (x : Double)
  deriving DecidableEq, Repr

inductive Value where
  | null
  | bool (b : Bool)
  | number (n : Numeric)
  | string (s : String)
  | array (items : List Value)
  | object (members : List (String × Value))

instance : Inhabited Value := ⟨.null⟩

/-! ## Numbers -/

/-- Appends digits to a coefficient as long as it fits 64 bits; gives the digits that are left
too. -/
def absorb (coefficient : Nat) : List Char → Nat × List Char
  | [] => (coefficient, [])
  | c :: rest =>
    let next := coefficient * 10 + (c.toNat - '0'.toNat)
    if next < UInt64.size then absorb next rest else (coefficient, c :: rest)

/-- A double divided by `10 ^ scale`, in steps if that power is no double; three steps leave zero of
any coefficient. -/
def scaleDown (fuel : Nat) (x : Double) (scale : Nat) : Double :=
  match fuel with
  | 0 => x
  | fuel + 1 =>
    if scale ≤ 308 then x.div (.ofNat (Nat.pow 10 scale))
    else if x.isZero then x
    else scaleDown fuel (x.div (.ofNat (Nat.pow 10 308))) (scale - 308)

/-- The double of a coefficient times a power of ten, unless it is infinite. -/
def scaled? (coefficient : Nat) (scale : Int) : Option Double :=
  let x : Double := .ofNat coefficient
  if scale < 0 then some (scaleDown 4 x (-scale).toNat)
  else if 308 < scale then (if x.isZero then some x else none)
  else (some (x.mul (.ofNat (Nat.pow 10 scale.toNat)))).filter (·.isFinite)

/-- The number that a numeral means. -/
def Numeric.ofNumeral? (n : Numeral) : Option Numeric :=
  let (whole, left) := absorb 0 n.whole
  let sign := fun (x : Double) => if n.negative then x.neg else x
  if n.fraction.isEmpty && n.exponent.isNone && left.isEmpty then
    if !n.negative then some (.int whole)
    else if whole = 0 ∨ UInt64.size / 2 < whole then some (.real (sign (.ofNat whole)))
    else some (.int (-whole))
  else
    let (coefficient, unused) := absorb whole n.fraction
    let places : Int := n.fraction.length - unused.length
    (scaled? coefficient (left.length - places + n.exponent.getD 0)).map fun x => .real (sign x)

/-! ## From trees -/

variable {ν : Type}

/-- The members as an object holds them: of several with one name the last, in the place of the
first. -/
def distinct (members : List (String × Value)) : List (String × Value) :=
  (Dict.ofList members).entries

mutual

/-- The value of a tree with at most `depth` containers inside each other, its numbers read by
`num?`. -/
def Value.ofNode? (num? : ν → Option Numeric) (depth : Nat) : Node ν → Option Value
  | .null => some .null
  | .bool b => some (.bool b)
  | .number n => (num? n).map .number
  | .string s => s.map .string
  | .array items =>
    match depth with
    | 0 => none
    | depth + 1 => (itemsOfNodes? num? depth items).map .array
  | .object members =>
    match depth with
    | 0 => none
    | depth + 1 =>
      (membersOfNodes? num? depth members).map fun members => .object (distinct members)

def itemsOfNodes? (num? : ν → Option Numeric) (depth : Nat) : List (Node ν) → Option (List Value)
  | [] => some []
  | item :: rest => do return (← Value.ofNode? num? depth item) :: (← itemsOfNodes? num? depth rest)

def membersOfNodes? (num? : ν → Option Numeric) (depth : Nat) :
    List (Option String × Node ν) → Option (List (String × Value))
  | [] => some []
  | (name, value) :: rest => do
    return (← name, ← Value.ofNode? num? depth value) :: (← membersOfNodes? num? depth rest)

end

/-- The most containers that may stand inside each other. -/
def deepest : Nat := 127

/-- The value that a text means. -/
def Value.read? (text : String) : Option Value :=
  Node.read? text >>= Value.ofNode? Numeric.ofNumeral? deepest

/-! ## To trees -/

/-- Doubles are written without an exponent if their first digit stands between the fifth place
behind the point and the sixteenth before it. -/
def doubleLayout : Number.Layout where
  tie := .toEven
  positional power := -5 ≤ power && power ≤ 15
  pointZero := true

/-- Singles are written without an exponent if their first digit stands between the sixth place
behind the point and the thirteenth before it. -/
def singleLayout : Number.Layout where
  tie := .toEven
  positional power := -6 ≤ power && power ≤ 12
  pointZero := true

/-- A whole number as a numeral. -/
def intNumeral (n : Int) : Numeral :=
  ⟨n < 0, Text.digits n.natAbs, [], none⟩

/-- A number as it is written. -/
def Numeric.toNumeral : Numeric → Numeral
  | .int n => intNumeral n
  | .real x => doubleLayout.write x

mutual

/-- The tree of a value, with numbers in the form that `num` gives them. -/
def Value.toNode (num : Numeric → ν) : Value → Node ν
  | .null => .null
  | .bool b => .bool b
  | .number n => .number (num n)
  | .string s => .string (some s)
  | .array items => .array (itemsToNodes num items)
  | .object members => .object (membersToNodes num members)

def itemsToNodes (num : Numeric → ν) : List Value → List (Node ν)
  | [] => []
  | item :: rest => item.toNode num :: itemsToNodes num rest

def membersToNodes (num : Numeric → ν) : List (String × Value) → List (Option String × Node ν)
  | [] => []
  | (name, value) :: rest => (some name, value.toNode num) :: membersToNodes num rest

end

/-- The tree of a value as it is written. -/
def Value.written (v : Value) : Written :=
  v.toNode Numeric.toNumeral

/-! ## Contents -/

/-- Equality as numbers: both zeros are equal, but a whole number differs from every double. -/
def Numeric.same : Numeric → Numeric → Bool
  | .int a, .int b => a == b
  | .real a, .real b => Binary.same a b
  | _, _ => false

mutual

/-- Equality of contents: the order of an object's members does not matter, and both zeros are
equal. -/
def Value.same : Value → Value → Bool
  | .null, .null => true
  | .bool a, .bool b => a == b
  | .number a, .number b => a.same b
  | .string a, .string b => a == b
  | .array as, .array bs => sameItems as bs
  | .object as, .object bs => as.length == bs.length && sameMembers as bs
  | _, _ => false

def sameItems : List Value → List Value → Bool
  | [], [] => true
  | a :: as, b :: bs => a.same b && sameItems as bs
  | _, _ => false

/-- Whether each of the first members is among the others. -/
def sameMembers : List (String × Value) → List (String × Value) → Bool
  | [], _ => true
  | (name, a) :: rest, others =>
    (match others.lookup name with
      | some b => a.same b
      | none => false) && sameMembers rest others

end

mutual

/-- Whether the members of every object inside have different names. -/
def Value.WellFormed : Value → Prop
  | .array items => ItemsWellFormed items
  | .object members => (members.map Prod.fst).Nodup ∧ MembersWellFormed members
  | _ => True

def ItemsWellFormed : List Value → Prop
  | [] => True
  | item :: rest => item.WellFormed ∧ ItemsWellFormed rest

def MembersWellFormed : List (String × Value) → Prop
  | [] => True
  | (_, value) :: rest => value.WellFormed ∧ MembersWellFormed rest

end

/-- Whether two dictionaries hold the same values under the same names, in whatever order. -/
def sameFields (a b : Dict Value) : Bool :=
  (Value.object a.entries).same (.object b.entries)

/-- The noun for a value of this kind. -/
def Value.kind : Value → String
  | .null => "null"
  | .bool _ => "a boolean"
  | .number _ => "a number"
  | .string _ => "a string"
  | .array _ => "an array"
  | .object _ => "an object"

def Value.asString? : Value → Option String
  | .string s => some s
  | _ => none

/-- The members of an object. -/
def Value.asObject? : Value → Option (Dict Value)
  | .object members => some (Dict.ofList members)
  | _ => none

end Keybinds.Json

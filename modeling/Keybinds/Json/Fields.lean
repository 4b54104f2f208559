import Keybinds.Dict
import Keybinds.Json.Node

/-!
# Fields of objects

Readers for objects whose fields have known names and types. A known field must not stand there
twice; what an unknown field holds is up to the reader of the object. A record may also stand as a
list of the values of its fields, without their names. Every reader fails with `none`.
-/

namespace Keybinds.Json

abbrev Fields (ν : Type) := List (String × Node ν)

variable {ν : Type}

/-- The members of an object all of whose names are texts. -/
def Node.fields? : Node ν → Option (Fields ν)
  | .object members => members.mapM fun (name, value) => name.map (·, value)
  | _ => none

/-- The fields of a record: those of an object, or the items of a list as the values of the fields
`names`, in this order, of which only those behind the first `least` may be missing. -/
def Node.record? (names : List String) (least : Nat) : Node ν → Option (Fields ν)
  | .array items =>
    if least ≤ items.length ∧ items.length ≤ names.length then some (names.zip items) else none
  | node => node.fields?

namespace Fields

/-- The value of a known field, or `none` inside if the field is missing. -/
def find? (fields : Fields ν) (name : String) : Option (Option (Node ν)) :=
  match fields.filter (·.1 == name) with
  | [] => some none
  | [(_, value)] => some (some value)
  | _ => none

/-- A field that may be missing, read by `f`. -/
def read? {α : Type} (fields : Fields ν) (name : String) (f : Node ν → Option α) :
    Option (Option α) := do
  match ← fields.find? name with
  | none => return none
  | some value => return some (← f value)

/-- A field that may be missing or null, read by `f`. -/
def readNullable? {α : Type} (fields : Fields ν) (name : String) (f : Node ν → Option α) :
    Option (Option α) := do
  match ← fields.find? name with
  | none => return none
  | some .null => return none
  | some value => return some (← f value)

/-- The fields with other names than the given ones. -/
def without (fields : Fields ν) (names : List String) : Fields ν :=
  fields.filter fun field => !names.contains field.1

end Fields

namespace Node

def readString? : Node ν → Option String
  | .string s => s
  | _ => none

def readBool? : Node ν → Option Bool
  | .bool b => some b
  | _ => none

def readArray? {α : Type} (f : Node ν → Option α) : Node ν → Option (List α)
  | .array items => items.mapM f
  | _ => none

/-- A dictionary of values read by `f`; of several with one name the last counts. -/
def readDict? {α : Type} (f : Node ν → Option α) (node : Node ν) : Option (Dict α) := do
  let entries ← (← node.fields?).mapM fun (name, value) => return (name, ← f value)
  return Dict.ofList entries

/-- A whole number below `bound`, written without sign, point and exponent. -/
def readBelow? (bound : Nat) : Written → Option Nat
  | .number n =>
    if n.negative || !n.fraction.isEmpty || n.exponent.isSome then none
    else (some (Nat.ofDigitChars 10 n.whole 0)).filter (· < bound)
  | _ => none

end Node

end Keybinds.Json

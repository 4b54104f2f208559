import Keybinds.Text.Basic
import Keybinds.Text.Numeral

/-!
# Schema versions

The version of a stored profile has three parts. Its text may have fewer, the missing ones being
zero, and a `v` in front.
-/

namespace Keybinds

structure Version where
  major : UInt32
  minor : UInt32 := 0
  patch : UInt32 := 0
  deriving DecidableEq, Repr

namespace Version

/-- The version of a profile that names none. -/
def unversioned : Version := ⟨0, 0, 0⟩

/-- The version that profiles are brought to. -/
def current : Version := ⟨2, 1, 1⟩

/-- The parts decide in turn. -/
def precedes (a b : Version) : Bool :=
  a.major < b.major ||
    (a.major == b.major && (a.minor < b.minor || (a.minor == b.minor && a.patch < b.patch)))

instance : LT Version := ⟨fun a b => a.precedes b = true⟩

instance (a b : Version) : Decidable (a < b) := inferInstanceAs (Decidable (_ = true))

/-- The later of two versions. -/
def later (a b : Version) : Version := if a < b then b else a

/-! ## Texts -/

def chars (v : Version) : List Char :=
  Text.digits v.major.toNat ++ '.' :: Text.digits v.minor.toNat ++ '.' :: Text.digits v.patch.toNat

/-- The three parts with points between them. -/
def text (v : Version) : String :=
  String.ofList v.chars

/-- The version that at most three numbers make. -/
def ofParts? : List UInt32 → Option Version
  | [major] => some { major }
  | [major, minor] => some { major, minor }
  | [major, minor, patch] => some { major, minor, patch }
  | _ => none

/-- A text without one `v` in front. -/
def dropMark : List Char → List Char
  | 'v' :: rest => rest
  | 'V' :: rest => rest
  | cs => cs

/-- The version that a text names, between any blanks. -/
def read? (s : String) : Option Version :=
  (((dropMark (Text.strip s.toList)).splitOnP (· == '.')).mapM Text.readUInt32?).bind ofParts?

/-- The message about a text that names no version. -/
def badMessage (s : String) : String :=
  "bad schema version '" ++ s ++ "'"

end Version

end Keybinds

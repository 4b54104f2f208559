import Keybinds.Chain.Bytes
import Mathlib.Tactic.ByContra
import Mathlib.Tactic.SplitIfs

/-!
# The scan over bytes with checked accesses

`scanBytesFrom` asks for each byte with a proof that it is there, or is content with none, and only
notes where a part begins and ends. The scan of this module reads the byte at its offset and the one
in front of it, looks for a pair in the bytes from an offset on, and slices the body; it fails where
a byte is not there, the ends of a slice come out of order, or one of them lies inside of a
character. Where it gives a result, `scanBytesFrom` gives the same (`scanBytesFrom_of_checked`).
-/

namespace Keybinds.Chain

/-! ## Accesses -/

/-- The offsets come in order, and both lie between two characters. -/
def MaySlice (body : String) (first last : Nat) : Prop :=
  first ≤ last ∧ (⟨first⟩ : String.Pos.Raw).IsValid body ∧ (⟨last⟩ : String.Pos.Raw).IsValid body

instance (body : String) (first last : Nat) : Decidable (MaySlice body first last) :=
  inferInstanceAs (Decidable (_ ∧ _ ∧ _))

/-- The offsets of a part, if the body may be sliced there. -/
def cut? (body : String) (first last : Nat) : Option (Nat × Nat) :=
  if MaySlice body first last then some (first, last) else none

/-- Whether a word may start at an offset, which looks at the byte in front of it unless the part
starts there. -/
def wordStartsAt? (bytes : ByteArray) (start i : Nat) : Option Bool :=
  if i = start then some true
  else if i = 0 then none
  else bytes[i - 1]?.map isBlankByte

/-- Whether the byte `c` at an offset opens a region outside of quotes. -/
def opensAt? (bytes : ByteArray) (start i : Nat) (c : UInt8) : Option Bool :=
  if c = byte '"' then some true
  else if c = byte '\'' then wordStartsAt? bytes start i
  else some false

/-- The state after a pair of quotes, which looks at the bytes from an offset on only if a word
follows there. -/
def afterPairAt? (bytes : ByteArray) (mark : UInt8) (i : Nat) : Option (Quoting UInt8) :=
  if wordFollowsAt bytes i then
    if i ≤ bytes.size then
      some (if pairOccursFrom bytes mark i then .doubled mark else .outside)
    else none
  else some .outside

/-- The scan from an offset on; it fails as soon as a byte is asked for that is not there or a part
is cut inside of a character. -/
def checkedScanFrom (body : String) (state : Quoting UInt8) (start i : Nat) : Option ByteScan :=
  let bytes := body.toUTF8
  if _h : i < body.toUTF8.size then do
    let c ← bytes[i]?
    let pair := bytes[i + 1]? == some c
    if c = byte '\\' then checkedScanFrom body state start (i + 2)
    else
      match state with
      | .outside =>
        let opens ← opensAt? bytes start i c
        if opens then
          if pair then
            let state ← afterPairAt? bytes c (i + 2)
            checkedScanFrom body state start (i + 2)
          else checkedScanFrom body (.quoted c) start (i + 1)
        else if c = byte '$' ∧ pair then
          let part ← cut? body start i
          let rest ← checkedScanFrom body .outside (i + 2) (i + 2)
          return { rest with bounds := part :: rest.bounds }
        else checkedScanFrom body .outside start (i + 1)
      | .quoted mark =>
        checkedScanFrom body (if c = mark then .outside else .quoted mark) start (i + 1)
      | .doubled mark =>
        if c = mark ∧ pair then checkedScanFrom body .outside start (i + 2)
        else checkedScanFrom body (.doubled mark) start (i + 1)
  else do
    let part ← cut? body start bytes.size
    return ⟨[part], state != .outside⟩
termination_by body.toUTF8.size - i
decreasing_by all_goals omega

/-- The scan of a body with every access checked. -/
def checkedScan (body : String) : Option ByteScan :=
  checkedScanFrom body .outside 0 0

/-! ## Agreement -/

theorem eq_of_cut? {body : String} {first last : Nat} {part : Nat × Nat}
    (h : cut? body first last = some part) : part = (first, last) := by
  unfold cut? at h
  split_ifs at h
  exact (Option.some.inj h).symm

theorem eq_of_opensAt? {bytes : ByteArray} {start i : Nat} {c : UInt8} {opens : Bool}
    (h : opensAt? bytes start i c = some opens) :
    opens = true ↔ c = byte '"' ∨ c = byte '\'' ∧ wordStartsAt bytes start i = true := by
  unfold opensAt? wordStartsAt? at h
  unfold wordStartsAt
  split_ifs at h with hdouble hsingle hstart hzero
  · simp_all
  · simp_all
  · obtain ⟨b, hb, rfl⟩ := Option.map_eq_some_iff.1 h
    simp_all
  · simp_all

/-- Where a word follows there are bytes, so the search for a pair never starts behind the end. -/
theorem afterPairAt?_eq (bytes : ByteArray) (mark : UInt8) (i : Nat) :
    afterPairAt? bytes mark i =
      some (if wordFollowsAt bytes i && pairOccursFrom bytes mark i then .doubled mark
        else .outside) := by
  unfold afterPairAt?
  cases hword : wordFollowsAt bytes i with
  | false => rfl
  | true =>
    have hi : i < bytes.size := by
      by_contra hi
      rw [wordFollowsAt, getElem?_neg bytes i hi] at hword
      cases hword
    simp [Nat.le_of_lt hi]

/-- One step of the checked scan inside of the body. -/
theorem checkedScanFrom_of_getElem? {body : String} {state : Quoting UInt8} {start i : Nat}
    {c : UInt8} (hc : body.toUTF8[i]? = some c) :
    checkedScanFrom body state start i =
      if c = byte '\\' then checkedScanFrom body state start (i + 2)
      else
        match state with
        | .outside => do
          let opens ← opensAt? body.toUTF8 start i c
          if opens then
            if body.toUTF8[i + 1]? = some c then
              let state ← afterPairAt? body.toUTF8 c (i + 2)
              checkedScanFrom body state start (i + 2)
            else checkedScanFrom body (.quoted c) start (i + 1)
          else if c = byte '$' ∧ body.toUTF8[i + 1]? = some c then
            let part ← cut? body start i
            let rest ← checkedScanFrom body .outside (i + 2) (i + 2)
            return { rest with bounds := part :: rest.bounds }
          else checkedScanFrom body .outside start (i + 1)
        | .quoted mark =>
          checkedScanFrom body (if c = mark then .outside else .quoted mark) start (i + 1)
        | .doubled mark =>
          if c = mark ∧ body.toUTF8[i + 1]? = some c then
            checkedScanFrom body .outside start (i + 2)
          else checkedScanFrom body (.doubled mark) start (i + 1) := by
  have hi : i < body.toUTF8.size := by
    by_contra hi
    rw [getElem?_neg body.toUTF8 i hi] at hc
    cases hc
  rw [checkedScanFrom]
  simp only [hi, hc, dif_pos, Option.bind_eq_bind, Option.bind_some, beq_iff_eq]

theorem checkedScanFrom_of_size_le {body : String} {state : Quoting UInt8} {start i : Nat}
    (hi : body.toUTF8.size ≤ i) :
    checkedScanFrom body state start i =
      (cut? body start body.toUTF8.size).map fun part => ⟨[part], state != .outside⟩ := by
  rw [checkedScanFrom, dif_neg (Nat.not_lt.2 hi)]
  cases cut? body start body.toUTF8.size <;> rfl

/-- What the checked scan gives is what the scan gives. -/
theorem scanBytesFrom_of_checked {body : String} {state : Quoting UInt8} {start i : Nat}
    {s : ByteScan} (h : checkedScanFrom body state start i = some s) :
    scanBytesFrom body.toUTF8 state start i = s := by
  -- Both take the same branch; in it, `h` says that no access failed.
  by_cases hi : i < body.toUTF8.size
  · rw [checkedScanFrom_of_getElem? (getElem?_pos body.toUTF8 i hi)] at h
    rw [scanBytesFrom, dif_pos hi]
    generalize body.toUTF8[i] = c at h ⊢
    simp only [beq_iff_eq]
    by_cases hback : c = byte '\\'
    · rw [if_pos hback] at h ⊢
      exact scanBytesFrom_of_checked h
    rw [if_neg hback] at h ⊢
    cases state with
    | outside =>
      obtain ⟨opens, hopens, h⟩ := Option.bind_eq_some_iff.1 h
      have hiff := eq_of_opensAt? hopens
      cases opens with
      | true =>
        rw [if_pos (hiff.1 rfl)]
        rw [if_pos rfl] at h
        by_cases hpair : body.toUTF8[i + 1]? = some c
        · rw [if_pos hpair, afterPairAt?_eq] at h
          rw [if_pos hpair]
          exact scanBytesFrom_of_checked h
        · rw [if_neg hpair] at h ⊢
          exact scanBytesFrom_of_checked h
      | false =>
        rw [if_neg fun hopen => Bool.false_ne_true (hiff.2 hopen)]
        rw [if_neg Bool.false_ne_true] at h
        by_cases hsep : c = byte '$' ∧ body.toUTF8[i + 1]? = some c
        · rw [if_pos hsep] at h ⊢
          obtain ⟨part, hpart, h⟩ := Option.bind_eq_some_iff.1 h
          obtain ⟨rest, hrest, h⟩ := Option.bind_eq_some_iff.1 h
          rw [scanBytesFrom_of_checked hrest, ← eq_of_cut? hpart]
          exact Option.some.inj h
        · rw [if_neg hsep] at h ⊢
          exact scanBytesFrom_of_checked h
    | quoted mark => exact scanBytesFrom_of_checked h
    | doubled mark =>
      by_cases hclose : c = mark ∧ body.toUTF8[i + 1]? = some c
      · simp only [if_pos hclose] at h ⊢
        exact scanBytesFrom_of_checked h
      · simp only [if_neg hclose] at h ⊢
        exact scanBytesFrom_of_checked h
  · rw [checkedScanFrom_of_size_le (Nat.not_lt.1 hi)] at h
    obtain ⟨part, hpart, rfl⟩ := Option.map_eq_some_iff.1 h
    rw [scanBytesFrom, dif_neg hi, eq_of_cut? hpart]
termination_by body.toUTF8.size - i
decreasing_by all_goals omega

end Keybinds.Chain

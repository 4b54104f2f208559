import Keybinds.Command.Parameters
import Keybinds.Proofs.Number.Rounding
import Keybinds.Proofs.Text.Words
import Mathlib.Data.List.TakeWhile
import Mathlib.Tactic.NormNum

/-!
# Amounts read back

A finite amount is read back from the text that a command holds it in (`readFinite?_amountText`),
which is one word (`isWord_amountText`).

1. The decimal that is chosen for a number rounds to it: it was tried, or it is exact
   (`magnitude_shortestDecimal`).
2. Its digits keep their value when the zeros at their end are dropped and the point is placed among
   them (`round_placePoint`).
3. A numeral without an exponent is read back from its text (`readNumeral?_text`).
-/

namespace Keybinds.Number

open Text (digits)

/-! ## Decimals that are chosen -/

theorem Format.unitsOf_lt (f : Format) (m : Nat) :
    f.unitsOf m < 2 * f.leading * 2 ^ (m / f.leading) := by
  have hfraction := Nat.mod_lt m f.leading_pos
  have hsplit := Nat.mod_add_div m f.leading
  cases he : m / f.leading with
  | zero =>
    have hlt : m < f.leading := (Nat.div_eq_zero_iff_lt f.leading_pos).1 he
    rw [f.unitsOf_of_lt hlt, Nat.pow_zero]
    omega
  | succ e =>
    rw [he] at hsplit
    rw [← hsplit, f.unitsOf_add hfraction, Nat.pow_succ]
    have hpow := Nat.two_pow_pos e
    exact Nat.mul_lt_mul_of_lt_of_le (by omega) (by omega) (by omega)

theorem Format.unitsOf_ne_zero {f : Format} (hf : 0 < f.precision) {m : Nat} (h0 : m ≠ 0)
    (hm : m < f.infinity) : f.unitsOf m ≠ 0 := by
  intro hzero
  have hunits : f.unitsOf 0 = 0 := f.unitsOf_of_lt f.leading_pos
  apply h0
  calc m = f.nearest (f.unitsOf m) 1 := (f.nearest_unitsOf_one hf hm).symm
    _ = f.nearest (f.unitsOf 0) 1 := by rw [hzero, hunits]
    _ = 0 := f.nearest_unitsOf_one hf (by omega)

/-- The exact decimal of a single has less digits than those that are out of range. -/
theorem length_exactDecimal_le {m : Nat} (hm : m < Format.single.infinity) :
    (digits (Format.single.unitsOf m * 5 ^ 149)).length ≤ 200 := by
  have hunits := Format.single.unitsOf_lt m
  have hexponent : m / Format.single.leading ≤ 255 := by
    have hinfinity : Format.single.infinity = 255 * Format.single.leading := by decide
    rw [hinfinity] at hm
    exact Nat.le_of_lt (Nat.div_lt_of_lt_mul (by rwa [Nat.mul_comm]))
  have hpow : 2 ^ (m / Format.single.leading) ≤ 2 ^ 255 := Nat.pow_le_pow_right (by omega) hexponent
  have hleading : Format.single.leading = 2 ^ 23 := rfl
  unfold digits
  rw [Nat.length_toDigits_le_iff (by decide) (by decide)]
  calc Format.single.unitsOf m * 5 ^ 149
      ≤ 2 * 2 ^ 23 * 2 ^ 255 * 5 ^ 149 :=
        Nat.mul_le_mul_right _ (hunits.le.trans (Nat.mul_le_mul_left _ hpow))
    _ < 10 ^ 200 := by norm_num

/-- The exact decimal of a single is rounded to it. -/
theorem magnitude_exactDecimal {m : Nat} (h0 : m ≠ 0) (hm : m < Format.single.infinity) :
    (roundDecimal false (Format.single.unitsOf m * 5 ^ 149) (-149) : Single).magnitude = m := by
  have hunits := Format.unitsOf_ne_zero (f := .single) (by decide) h0 hm
  have hlength := length_exactDecimal_le hm
  have hcoefficient : Format.single.unitsOf m * 5 ^ 149 ≠ 0 := Nat.mul_ne_zero hunits (by norm_num)
  have hone : Format.single.one = 2 ^ 149 := by decide
  have hpowers : 5 ^ 149 * 2 ^ 149 = 10 ^ 149 := by rw [← Nat.mul_pow]
  have hfar : farthest = 400 := rfl
  rw [roundDecimal_of_size false hcoefficient (by omega) (by omega)]
  show Format.single.nearest (_ * 10 ^ 0 * Format.single.one) (10 ^ 149) = m
  rw [Nat.pow_zero, Nat.mul_one, hone, Nat.mul_assoc, hpowers]
  exact Format.single.nearest_unitsOf (by decide) hm (Nat.pow_pos (by decide))

theorem magnitude_shortestDecimal (tie : Tie) {m : Nat} (h0 : m ≠ 0)
    (hm : m < Format.single.infinity) :
    (roundDecimal false (shortestDecimal .single tie m).1
      (shortestDecimal .single tie m).2 : Single).magnitude = m := by
  unfold shortestDecimal
  dsimp only
  generalize (List.range Format.single.precision).flatMap (fun count =>
    candidates tie (Format.single.unitsOf m) Format.single.one (count + 1)) = grids
  cases hfind : grids.find? _ with
  | some decimal =>
    have hreads := List.find?_some hfind
    simpa using hreads
  | none => exact magnitude_exactDecimal h0 hm

/-! ## Digits -/

/-- The value of some digits. -/
def valueOf (ds : List Char) : Nat := Nat.ofDigitChars 10 ds 0

theorem valueOf_append_zeros (ds : List Char) (k : Nat) :
    valueOf (ds ++ List.replicate k '0') = valueOf ds * 10 ^ k := by
  unfold valueOf
  rw [Nat.ofDigitChars_append, Nat.ofDigitChars_replicate_zero, Nat.mul_comm]

theorem valueOf_zeros_append (k : Nat) (ds : List Char) :
    valueOf (List.replicate k '0' ++ ds) = valueOf ds := by
  unfold valueOf
  rw [Nat.ofDigitChars_append, Nat.ofDigitChars_replicate_zero, Nat.mul_zero]

/-- A list of digits. -/
def AllDigits (ds : List Char) : Prop := ∀ d ∈ ds, d.isDigit = true

theorem allDigits_replicate (k : Nat) : AllDigits (List.replicate k '0') := by
  intro d hd
  rw [List.eq_of_mem_replicate hd]
  rfl

theorem AllDigits.append {ds ds' : List Char} (h : AllDigits ds) (h' : AllDigits ds') :
    AllDigits (ds ++ ds') := by
  intro d hd
  rcases List.mem_append.1 hd with hd | hd
  · exact h d hd
  · exact h' d hd

theorem AllDigits.sublist {ds ds' : List Char} (h : AllDigits ds') (hsub : ds.Sublist ds') :
    AllDigits ds :=
  fun d hd => h d (hsub.subset hd)

/-- The zeros at the end of a coefficient's digits stand in the power of ten. -/
theorem exists_significantDigits {c : Nat} (hc : c ≠ 0) (scale : Int) :
    ∃ ds, ∃ k : Nat, significantDigits c scale = (ds, ds.length + k + scale - 1) ∧ ds ≠ [] ∧
      AllDigits ds ∧ c = valueOf ds * 10 ^ k := by
  have hzeros := List.eq_replicate_of_mem fun d hd =>
    beq_iff_eq.1 (List.mem_takeWhile_imp (p := (· == '0')) (l := (digits c).reverse) hd)
  generalize hk : ((digits c).reverse.takeWhile (· == '0')).length = k at hzeros
  have hsplit : digits c = ((digits c).reverse.dropWhile (· == '0')).reverse ++
      List.replicate k '0' := by
    have happend := List.takeWhile_append_dropWhile (p := (· == '0')) (l := (digits c).reverse)
    rw [hzeros] at happend
    rw [← List.reverse_replicate, ← List.reverse_append, happend, List.reverse_reverse]
  have hvalue : valueOf (digits c) = c := Nat.ofDigitChars_ten_toDigits
  refine ⟨((digits c).reverse.dropWhile (· == '0')).reverse, k, ?_, ?_, ?_, ?_⟩
  · have hlength := congrArg List.length hsplit
    rw [List.length_append, List.length_replicate] at hlength
    unfold significantDigits
    dsimp only
    rw [hlength, Nat.cast_add]
  · intro hnil
    rw [hnil, List.nil_append] at hsplit
    apply hc
    rw [← hvalue, hsplit, ← List.nil_append (List.replicate k '0'), valueOf_append_zeros]
    exact Nat.zero_mul _
  · intro d hd
    refine Nat.isDigit_of_mem_toDigits (b := 10) (n := c) (by decide) (by decide) ?_
    show d ∈ digits c
    rw [hsplit]
    exact List.mem_append_left _ hd
  · rw [← valueOf_append_zeros, ← hsplit, hvalue]

/-! ## Numerals -/

/-- A numeral of digits alone, with at least one before the point. -/
structure Numeral.IsPlain (n : Numeral) : Prop where
  whole_ne_nil : n.whole ≠ []
  whole : AllDigits n.whole
  fraction : AllDigits n.fraction
  exponent : n.exponent = none

/-- Placing the point gives the digits their power of ten. -/
theorem round_placePoint {f : Format} (negative : Bool) (ds : List Char) (power : Int) :
    (Numeral.mk negative (placePoint false ds power).1 (placePoint false ds power).2 none).round =
      (roundDecimal negative (valueOf ds) (power + 1 - ds.length) : Binary f) := by
  unfold Numeral.round Numeral.coefficient Numeral.scale placePoint
  by_cases hpower : power < 0
  · rw [if_pos hpower]
    have hcoefficient : Nat.ofDigitChars 10
        (['0'] ++ (List.replicate (-power - 1).toNat '0' ++ ds)) 0 = valueOf ds := by
      rw [← List.append_assoc]
      exact valueOf_zeros_append ((-power - 1).toNat + 1) ds
    have hscale : (none : Option Int).getD 0 -
        ((List.replicate (-power - 1).toNat '0' ++ ds).length : Int) = power + 1 - ds.length := by
      rw [List.length_append, List.length_replicate, Option.getD_none]
      omega
    dsimp only
    rw [hcoefficient, hscale]
  · rw [if_neg hpower]
    simp only [Bool.and_false, Bool.false_eq_true, if_false, Option.getD_none]
    by_cases hlength : ds.length ≤ (power + 1).toNat
    · rw [List.take_of_length_le hlength, List.drop_of_length_le hlength, List.append_nil]
      have hcoefficient := valueOf_append_zeros ds ((power + 1).toNat - ds.length)
      unfold valueOf at hcoefficient
      rw [hcoefficient, roundDecimal_mul_pow]
      unfold valueOf
      congr 1
      simp only [List.length_nil]
      omega
    · have hzeros : (power + 1).toNat - ds.length = 0 := by omega
      rw [hzeros, List.replicate_zero, List.append_nil, List.take_append_drop, List.length_drop]
      unfold valueOf
      congr 1
      omega

theorem isPlain_placePoint (negative : Bool) {ds : List Char} (hne : ds ≠ []) (hds : AllDigits ds)
    (power : Int) :
    (Numeral.mk negative (placePoint false ds power).1
      (placePoint false ds power).2 none).IsPlain := by
  have hlength := List.length_pos_iff.2 hne
  unfold placePoint
  by_cases hpower : power < 0
  · rw [if_pos hpower]
    exact ⟨List.cons_ne_nil _ _, allDigits_replicate 1, (allDigits_replicate _).append hds, rfl⟩
  · rw [if_neg hpower]
    simp only [Bool.and_false, Bool.false_eq_true, if_false]
    refine ⟨?_, (hds.sublist (List.take_sublist _ _)).append (allDigits_replicate _),
      hds.sublist (List.drop_sublist _ _), rfl⟩
    intro hnil
    have htake := congrArg List.length (List.append_eq_nil_iff.1 hnil).1
    rw [List.length_take, List.length_nil] at htake
    omega

/-- A numeral of digits alone is read back from its text. -/
theorem readNumeral?_text {n : Numeral} (h : n.IsPlain) : readNumeral? (n.text []) = some n := by
  obtain ⟨negative, whole, fraction, exponent⟩ := n
  obtain ⟨hne, hwhole, hfraction, hexponent⟩ := h
  dsimp only at hne hwhole hfraction hexponent
  subst hexponent
  have hsign : splitSign (Numeral.text [] ⟨negative, whole, fraction, none⟩) =
      (negative, whole ++ if fraction.isEmpty then [] else '.' :: fraction) := by
    unfold Numeral.text
    cases negative with
    | true => simp [splitSign]
    | false =>
      obtain ⟨d, rest, rfl⟩ := List.exists_cons_of_ne_nil hne
      have hd := hwhole d List.mem_cons_self
      have hminus : d ≠ '-' := by
        rintro rfl
        cases hd
      have hplus : d ≠ '+' := by
        rintro rfl
        cases hd
      simp [splitSign, hminus, hplus]
  have htake : ∀ tail : List Char, (∀ c ∈ tail.head?, c.isDigit = false) →
      (whole ++ tail).takeWhile Char.isDigit = whole := by
    intro tail htail
    rw [List.takeWhile_append_of_pos hwhole]
    cases tail with
    | nil => simp
    | cons c tail =>
      rw [List.takeWhile_cons_of_neg, List.append_nil]
      rw [htail c rfl]
      exact Bool.false_ne_true
  unfold readNumeral?
  rw [hsign]
  cases fraction with
  | nil =>
    have hall := htake [] (by simp)
    rw [List.append_nil] at hall
    simp [hall, hne, readExponent?]
  | cons d fraction =>
    have hall := htake ('.' :: d :: fraction) (by simp)
    have hnext : (d :: fraction).takeWhile Char.isDigit = d :: fraction :=
      List.takeWhile_eq_self_iff.2 hfraction
    have hend : (d :: fraction).dropWhile Char.isDigit = [] :=
      List.dropWhile_eq_nil_iff.2 hfraction
    simp only [List.isEmpty_cons, Bool.false_eq_true, if_false, hall, List.drop_left, hnext, hend]
    simp [readExponent?]

/-- The text of such a numeral is one word. -/
theorem Numeral.IsPlain.isWord_text {n : Numeral} (h : n.IsPlain) : Text.IsWord (n.text []) := by
  have hdigits : ∀ ds, AllDigits ds → Text.NoBlank ds :=
    fun ds hds d hd => Text.not_isBlank_of_isDigit (hds d hd)
  unfold Numeral.text
  rw [h.exponent, List.append_nil]
  constructor
  · intro hnil
    exact h.whole_ne_nil (List.append_eq_nil_iff.1 (List.append_eq_nil_iff.1 hnil).1).2
  · intro c hc
    rw [List.mem_append, List.mem_append] at hc
    rcases hc with (hc | hc) | hc
    · split_ifs at hc
      · rw [List.mem_singleton.1 hc]
        rfl
      · cases hc
    · exact hdigits _ h.whole c hc
    · split_ifs at hc
      · cases hc
      · rcases List.mem_cons.1 hc with rfl | hc
        · rfl
        · exact hdigits _ h.fraction c hc

/-! ## Amounts -/

theorem roundDecimal_zero {f : Format} (negative : Bool) (scale : Int) :
    (roundDecimal negative 0 scale : Binary f) = ⟨negative, 0⟩ := by
  unfold roundDecimal
  dsimp only
  rw [if_pos (Or.inl rfl)]

/-- A layout without exponents and bare points. -/
structure Layout.IsPlain (layout : Layout) : Prop where
  positional : ∀ power, layout.positional power = true
  pointZero : layout.pointZero = false

/-- A finite number is written as a numeral that is rounded to it. -/
theorem round_write {layout : Layout} (h : layout.IsPlain) {x : Single} (hx : x.isFinite = true) :
    (layout.write x).IsPlain ∧ (layout.write x).round = x := by
  have hm : x.magnitude < Format.single.infinity := of_decide_eq_true hx
  by_cases hzero : x.magnitude = 0
  · have hwrite : layout.write x = ⟨x.negative, ['0'], [], none⟩ := by
      unfold Layout.write Binary.isZero
      rw [if_pos (beq_iff_eq.2 hzero), h.pointZero]
      rfl
    rw [hwrite]
    refine ⟨⟨List.cons_ne_nil _ _, allDigits_replicate 1, allDigits_replicate 0, rfl⟩, ?_⟩
    refine (roundDecimal_zero _ _).trans ?_
    rw [← hzero]
  · have hshortest := magnitude_shortestDecimal layout.tie hzero hm
    cases hdecimal : shortestDecimal .single layout.tie x.magnitude with
    | mk c scale =>
      rw [hdecimal] at hshortest
      have hc : c ≠ 0 := by
        rintro rfl
        rw [roundDecimal_zero] at hshortest
        exact hzero hshortest.symm
      obtain ⟨ds, k, hdigits, hne, hds, hvalue⟩ := exists_significantDigits hc scale
      generalize hpower : (ds.length + k + scale - 1 : Int) = power at hdigits
      have hwrite : layout.write x =
          ⟨x.negative, (placePoint false ds power).1, (placePoint false ds power).2, none⟩ := by
        unfold Layout.write Binary.isZero
        rw [if_neg fun hx => hzero (beq_iff_eq.1 hx), hdecimal]
        simp only [hdigits, h.positional, h.pointZero, if_true]
      rw [hwrite]
      refine ⟨isPlain_placePoint x.negative hne hds power, ?_⟩
      have hscale : power + 1 - ds.length = scale + k := by omega
      rw [round_placePoint, hscale, ← roundDecimal_mul_pow, ← hvalue, roundDecimal_eq, hshortest]

end Keybinds.Number

namespace Keybinds.Command

open Number

theorem isPlain_plainLayout : plainLayout.IsPlain := ⟨fun _ => rfl, rfl⟩

theorem toList_amountText {x : Single} (hx : x.isFinite = true) :
    (amountText plainLayout x).toList = (plainLayout.write x).text [] := by
  unfold amountText
  rw [if_pos hx, String.toList_ofList]

theorem isWord_amountText {x : Single} (hx : x.isFinite = true) :
    Text.IsWord (amountText plainLayout x).toList := by
  rw [toList_amountText hx]
  exact (round_write isPlain_plainLayout hx).1.isWord_text

/-- A finite amount is read back from its text. -/
theorem readFinite?_amountText {x : Single} (hx : x.isFinite = true) :
    readFinite? (amountText plainLayout x).toList = some x := by
  obtain ⟨hplain, hround⟩ := round_write isPlain_plainLayout hx
  unfold readFinite?
  rw [toList_amountText hx, readNumeral?_text hplain, Option.map_some, hround,
    Option.filter_some, if_pos hx]

end Keybinds.Command

import Keybinds.Number.Numeral
import Mathlib.Data.Nat.Basic
import Mathlib.Tactic.Ring

/-!
# Rounding

Rounding looks at a quotient only: a factor that numerator and denominator share does not count
(`Format.nearest_mul_right`). A quotient that is a whole number of a magnitude's units is rounded to
that magnitude (`Format.nearest_unitsOf`). So a decimal is rounded by its value, in whatever way it
is spread over coefficient and power of ten (`roundDecimal_mul_pow`).
-/

namespace Keybinds.Number

/-! ## Quotients -/

theorem roundQuotient_mul_right (num den : Nat) {k : Nat} (hk : 0 < k) :
    roundQuotient (num * k) (den * k) = roundQuotient num den := by
  have hlt : 2 * (num % den * k) < den * k ↔ 2 * (num % den) < den := by
    rw [← Nat.mul_assoc]
    exact Nat.mul_lt_mul_right hk
  have heq : 2 * (num % den * k) = den * k ↔ 2 * (num % den) = den := by
    rw [← Nat.mul_assoc]
    exact Nat.mul_left_inj (Nat.pos_iff_ne_zero.1 hk)
  unfold roundQuotient
  simp only [Nat.mul_div_mul_right _ _ hk, Nat.mul_mod_mul_right, hlt, heq]

theorem roundQuotient_mul_self (n : Nat) {den : Nat} (hden : 0 < den) :
    roundQuotient (n * den) den = n := by
  have h := roundQuotient_mul_right n 1 hden
  rw [Nat.one_mul] at h
  rw [h]
  simp [roundQuotient, Nat.mod_one]

/-! ## Magnitudes -/

namespace Format

variable (f : Format)

theorem leading_eq : f.leading = 2 ^ (f.precision - 1) := by
  unfold leading
  rw [Nat.shiftLeft_eq, Nat.one_mul]

theorem leading_pos : 0 < f.leading := by
  rw [leading_eq]
  exact Nat.two_pow_pos _

/-- Below the leading bit a magnitude counts its own units. -/
theorem unitsOf_of_lt {m : Nat} (h : m < f.leading) : f.unitsOf m = m := by
  unfold unitsOf
  simp only [Nat.div_eq_of_lt h, Nat.mod_eq_of_lt h, if_true]

theorem unitsOf_add {fraction : Nat} (h : fraction < f.leading) (e : Nat) :
    f.unitsOf (fraction + f.leading * (e + 1)) = (fraction + f.leading) * 2 ^ e := by
  have hdiv : (fraction + f.leading * (e + 1)) / f.leading = e + 1 := by
    rw [Nat.add_mul_div_left _ _ f.leading_pos, Nat.div_eq_of_lt h, Nat.zero_add]
  unfold unitsOf
  simp [hdiv, Nat.mod_eq_of_lt h, Nat.shiftLeft_eq]

/-- A factor that numerator and denominator share does not count. -/
theorem nearest_mul_right (num den : Nat) {k : Nat} (hk : 0 < k) :
    f.nearest (num * k) (den * k) = f.nearest num den := by
  unfold nearest
  dsimp only
  rw [Nat.mul_div_mul_right _ _ hk]
  generalize (num / den).log2 + 1 - f.precision = shift
  have hshift : (den * k) <<< shift = (den <<< shift) * k := by
    rw [Nat.shiftLeft_eq, Nat.shiftLeft_eq]
    ring
  rw [hshift, roundQuotient_mul_right _ _ hk]

theorem nearest_one (units : Nat) :
    f.nearest units 1 = min ((units.log2 + 1 - f.precision) * f.leading +
      roundQuotient units (2 ^ (units.log2 + 1 - f.precision))) f.infinity := by
  unfold nearest
  simp only [Nat.div_one, Nat.shiftLeft_eq, Nat.one_mul]

/-- The leading bit of a significand is its highest. -/
theorem log2_significand {fraction : Nat} (h : fraction < f.leading) (e : Nat) :
    ((fraction + f.leading) * 2 ^ e).log2 = f.precision - 1 + e := by
  have hpos := f.leading_pos
  have hpow : 2 ^ (f.precision - 1 + e) = f.leading * 2 ^ e := by rw [Nat.pow_add, ← leading_eq]
  have hne : (fraction + f.leading) * 2 ^ e ≠ 0 :=
    Nat.mul_ne_zero (by omega) (Nat.pos_iff_ne_zero.1 (Nat.two_pow_pos e))
  have hlow : f.leading * 2 ^ e ≤ (fraction + f.leading) * 2 ^ e :=
    Nat.mul_le_mul_right _ (by omega)
  have hhigh : (fraction + f.leading) * 2 ^ e < 2 * f.leading * 2 ^ e :=
    Nat.mul_lt_mul_of_pos_right (by omega) (Nat.two_pow_pos e)
  rw [Nat.log2_eq_iff hne, Nat.pow_succ, hpow]
  constructor
  · exact hlow
  · rw [Nat.mul_comm _ 2, ← Nat.mul_assoc]
    exact hhigh

/-- The units that a magnitude stands for are rounded to it. -/
theorem nearest_unitsOf_one (hf : 0 < f.precision) {m : Nat} (hm : m < f.infinity) :
    f.nearest (f.unitsOf m) 1 = m := by
  have hsplit := Nat.mod_add_div m f.leading
  have hfraction := Nat.mod_lt m f.leading_pos
  cases he : m / f.leading with
  | zero =>
    have hlt : m < f.leading := (Nat.div_eq_zero_iff_lt f.leading_pos).1 he
    have hlog : m.log2 + 1 - f.precision = 0 := by
      by_cases h0 : m = 0
      · rw [h0, Nat.log2_zero]
        omega
      · have hlog2 := (Nat.log2_lt h0).2 (f.leading_eq ▸ hlt)
        omega
    have hround := roundQuotient_mul_self m Nat.one_pos
    rw [Nat.mul_one] at hround
    rw [f.unitsOf_of_lt hlt, nearest_one, hlog, Nat.pow_zero, hround]
    omega
  | succ e =>
    rw [he] at hsplit
    generalize m % f.leading = fraction at hsplit hfraction
    have hlog : ((fraction + f.leading) * 2 ^ e).log2 + 1 - f.precision = e := by
      have hlog2 := f.log2_significand hfraction e
      omega
    have hvalue : e * f.leading + (fraction + f.leading) = m := by
      rw [← hsplit]
      ring
    rw [← hsplit, f.unitsOf_add hfraction, nearest_one, hlog,
      roundQuotient_mul_self _ (Nat.two_pow_pos e), hvalue, hsplit]
    omega

/-- A quotient that is a whole number of a magnitude's units is rounded to that magnitude. -/
theorem nearest_unitsOf (hf : 0 < f.precision) {m : Nat} (hm : m < f.infinity) {den : Nat}
    (hden : 0 < den) : f.nearest (f.unitsOf m * den) den = m := by
  have h := f.nearest_mul_right (f.unitsOf m) 1 hden
  rw [Nat.one_mul] at h
  rw [h, f.nearest_unitsOf_one hf hm]

end Format

/-! ## Decimals -/

theorem Binary.ofQuotient_mul_right {f : Format} (negative : Bool) (num den : Nat) {k : Nat}
    (hk : 0 < k) :
    (ofQuotient negative (num * k) (den * k) : Binary f) = ofQuotient negative num den := by
  unfold ofQuotient
  rw [Nat.mul_right_comm, f.nearest_mul_right _ _ hk]

/-- Only the value of a quotient counts. -/
theorem Binary.ofQuotient_congr {f : Format} (negative : Bool) {num den num' den' : Nat}
    (hden : 0 < den) (hden' : 0 < den') (h : num * den' = num' * den) :
    (ofQuotient negative num den : Binary f) = ofQuotient negative num' den' := by
  rw [← ofQuotient_mul_right negative num den hden', h, Nat.mul_comm den den',
    ofQuotient_mul_right negative num' den' hden]

/-- Zeros behind a number add to its digits. -/
theorem length_digits_mul_pow {c : Nat} (hc : c ≠ 0) (k : Nat) :
    (Text.digits (c * 10 ^ k)).length = (Text.digits c).length + k := by
  have hten : 1 < 10 := by decide
  unfold Text.digits
  induction k with
  | zero => simp
  | succ k ih =>
    have hpos : 0 < c * 10 ^ k := Nat.mul_pos (by omega) (Nat.pow_pos (by decide))
    have happend := Nat.toDigits_append_toDigits hten hpos (show 0 < 10 by decide)
    have hnext : c * 10 ^ (k + 1) = 10 * (c * 10 ^ k) + 0 := by ring
    rw [hnext, ← happend, List.length_append, ih]
    rfl

variable {f : Format} (negative : Bool)

/-- The sign is rounded apart. -/
theorem roundDecimal_eq (c : Nat) (s : Int) :
    (roundDecimal negative c s : Binary f) =
      ⟨negative, (roundDecimal false c s : Binary f).magnitude⟩ := by
  unfold roundDecimal
  dsimp only
  split_ifs <;> rfl

/-- A decimal that neither is zero nor has its first digit very far from the point is rounded as a
quotient. -/
theorem roundDecimal_of_size {c : Nat} {s : Int} (hc : c ≠ 0)
    (hlow : -farthest ≤ (Text.digits c).length + s)
    (hhigh : (Text.digits c).length + s ≤ farthest) :
    (roundDecimal negative c s : Binary f) =
      Binary.ofQuotient negative (c * 10 ^ s.toNat) (10 ^ (-s).toNat) := by
  unfold roundDecimal
  dsimp only
  rw [if_neg (by omega), if_neg (by omega)]
  split_ifs with hs
  · rw [show (-s).toNat = 0 by omega]
    rfl
  · rw [show s.toNat = 0 by omega]
    simp

/-- Zeros at the end of a coefficient may as well stand in the power of ten. -/
theorem roundDecimal_mul_pow (c k : Nat) (s : Int) :
    (roundDecimal negative (c * 10 ^ k) s : Binary f) = roundDecimal negative c (s + k) := by
  by_cases hc : c = 0
  · subst hc
    simp [roundDecimal]
  have hck : c * 10 ^ k ≠ 0 := Nat.mul_ne_zero hc (Nat.pos_iff_ne_zero.1 (Nat.pow_pos (by decide)))
  have hlength := length_digits_mul_pow hc k
  by_cases hlow : -farthest ≤ (Text.digits c).length + (s + k)
  · by_cases hhigh : (Text.digits c).length + (s + k) ≤ farthest
    · rw [roundDecimal_of_size negative hck (by omega) (by omega),
        roundDecimal_of_size negative hc hlow hhigh]
      refine Binary.ofQuotient_congr negative (Nat.pow_pos (by decide)) (Nat.pow_pos (by decide)) ?_
      have hpower : k + (s.toNat + (-(s + k)).toNat) = (s + k).toNat + (-s).toNat := by omega
      rw [Nat.mul_assoc, Nat.mul_assoc, Nat.mul_assoc, ← Nat.pow_add, ← Nat.pow_add, ← Nat.pow_add,
        hpower]
    · unfold roundDecimal
      dsimp only
      rw [if_neg (by omega), if_pos (by omega), if_neg (by omega), if_pos (by omega)]
  · unfold roundDecimal
    dsimp only
    rw [if_pos (by omega), if_pos (by omega)]

end Keybinds.Number

import Mathlib

/-!
# Rounding to nearest

Rational numbers are rounded to multiples of a power of two that depends on their size, so that as
many bits are left as a format has in a mantissa, or fewer below its least normal number. Halfway
values go to the even multiple. There is no greatest number here.

Main statements:

* `nearestIn_mono`: rounding keeps the order;
* `nearestIn_scaled`: what fits is rounded to itself;
* `abs_nearest_sub_le`: how far a value is rounded to a double.
-/

namespace Curves.Number
open Float.Model (Format)

/-- The integer nearest to `q`, the even one from halfway. -/
def roundInt (q : ℚ) : Int :=
  if q - ⌊q⌋ < 1 / 2 then ⌊q⌋
  else if 1 / 2 < q - ⌊q⌋ then ⌊q⌋ + 1
  else ⌊q⌋ + ⌊q⌋ % 2

theorem roundInt_intCast (n : Int) : roundInt n = n := by
  simp [roundInt]

theorem floor_le_roundInt (q : ℚ) : ⌊q⌋ ≤ roundInt q ∧ roundInt q ≤ ⌊q⌋ + 1 := by
  unfold roundInt
  split_ifs <;> omega

theorem abs_roundInt_sub_le (q : ℚ) : |roundInt q - q| ≤ 1 / 2 := by
  have := Int.floor_le q
  have := Int.lt_floor_add_one q
  have parity : ⌊q⌋ % 2 = 0 ∨ ⌊q⌋ % 2 = 1 := by omega
  unfold roundInt
  rw [abs_le]
  split_ifs
  · constructor <;> linarith
  · push_cast
    constructor <;> linarith
  · rcases parity with h | h <;> rw [h] <;> push_cast <;> constructor <;> linarith

/-- Rounding to integers keeps the order. -/
theorem roundInt_mono {p q : ℚ} (h : p ≤ q) : roundInt p ≤ roundInt q := by
  have floors := Int.floor_le_floor h
  rcases floors.lt_or_eq with less | same
  · have := (floor_le_roundInt p).2
    have := (floor_le_roundInt q).1
    omega
  · unfold roundInt
    rw [same]
    split_ifs <;> first | omega | linarith

theorem roundInt_neg (q : ℚ) : roundInt (-q) = -roundInt q := by
  by_cases integral : (⌊q⌋ : ℚ) = q
  · rw [← integral, ← Int.cast_neg, roundInt_intCast, roundInt_intCast]
  · have low := lt_of_le_of_ne (Int.floor_le q) integral
    have high := Int.lt_floor_add_one q
    have floor : ⌊-q⌋ = -⌊q⌋ - 1 := by
      rw [Int.floor_eq_iff]
      push_cast
      constructor <;> linarith
    unfold roundInt
    rw [floor]
    push_cast
    split_ifs <;> first | omega | linarith

/-! ## Formats -/

/-- The exponent of the distance between numbers of the size of `q`. -/
def spacingIn (f : Format) (q : ℚ) : Int :=
  max (Int.log 2 |q| - f.mantissaBitsWithoutImplicit) f.minExponent

/-- The number nearest to `q` if exponents are not bounded above, the one with even mantissa from
halfway. -/
def nearestIn (f : Format) (q : ℚ) : ℚ := roundInt (q / 2 ^ spacingIn f q) * 2 ^ spacingIn f q

theorem mantissaBits_eq (f : Format) : f.mantissaBits = 1 + f.mantissaBitsWithoutImplicit := rfl

section Format
variable (f : Format) {p q : ℚ} {e n : Int}

theorem nearestIn_neg (q : ℚ) : nearestIn f (-q) = -nearestIn f q := by
  simp [nearestIn, spacingIn, neg_div, roundInt_neg]

theorem nearestIn_zero : nearestIn f 0 = 0 := by
  simp [nearestIn, show roundInt 0 = 0 from roundInt_intCast 0]

/-- The spacing at a number is given by its size. -/
theorem spacingIn_le_iff (hq : q ≠ 0) :
    spacingIn f q ≤ e ↔ f.minExponent ≤ e ∧ |q| < 2 ^ (e + f.mantissaBits) := by
  have size : |q| < (2 : Nat) ^ (e + f.mantissaBits) ↔ Int.log 2 |q| < e + f.mantissaBits :=
    Int.lt_zpow_iff_log_lt one_lt_two (abs_pos.2 hq)
  push_cast at size
  rw [size, spacingIn, mantissaBits_eq]
  omega

theorem zpow_le_of_lt_spacingIn (hq : q ≠ 0) (h : f.minExponent < spacingIn f q) :
    2 ^ (spacingIn f q + f.mantissaBitsWithoutImplicit) ≤ |q| := by
  have below : ¬ spacingIn f q ≤ spacingIn f q - 1 := by omega
  have shift : spacingIn f q - 1 + f.mantissaBits =
      spacingIn f q + f.mantissaBitsWithoutImplicit := by
    rw [mantissaBits_eq]
    omega
  rw [spacingIn_le_iff f hq, shift] at below
  by_contra! small
  exact below ⟨by omega, small⟩

theorem div_spacingIn (h : spacingIn f q ≤ e) (n : Int) :
    ∃ k : Int, (n : ℚ) * 2 ^ e / 2 ^ spacingIn f q = k := by
  obtain ⟨k, hk⟩ := Int.eq_ofNat_of_zero_le (Int.sub_nonneg_of_le h)
  refine ⟨n * 2 ^ k, ?_⟩
  rw [mul_div_assoc, ← zpow_sub₀ two_ne_zero, hk]
  push_cast
  rfl

/-- Multiples of the spacing bound the rounded value as they bound the exact one. -/
theorem nearestIn_le_of_le (h : spacingIn f q ≤ e) (hq : q ≤ n * 2 ^ e) :
    nearestIn f q ≤ n * 2 ^ e := by
  obtain ⟨k, hk⟩ := div_spacingIn f h n
  have unit : (0 : ℚ) < 2 ^ spacingIn f q := by positivity
  have := roundInt_mono (div_le_div_of_nonneg_right hq unit.le)
  rw [hk, roundInt_intCast] at this
  rw [nearestIn, ← le_div_iff₀ unit, hk]
  exact_mod_cast this

/-- A multiple of a wider spacing is not passed by rounding. -/
theorem le_nearestIn_of_le (h : spacingIn f q ≤ e) (hq : n * 2 ^ e ≤ q) :
    n * 2 ^ e ≤ nearestIn f q := by
  have mirrored : spacingIn f (-q) ≤ e := by rwa [spacingIn, abs_neg]
  have := nearestIn_le_of_le f (n := -n) mirrored (by push_cast; linarith)
  rw [nearestIn_neg] at this
  push_cast at this
  linarith

theorem nearestIn_nonneg (hq : 0 ≤ q) : 0 ≤ nearestIn f q := by
  simpa using le_nearestIn_of_le f (n := 0) le_rfl (by simpa)

/-- Numbers of the format are rounded to themselves. -/
theorem nearestIn_scaled (small : |n| < 2 ^ f.mantissaBits) (h : f.minExponent ≤ e) :
    nearestIn f (n * 2 ^ e) = n * 2 ^ e := by
  by_cases zero : n = 0
  · simp [zero, nearestIn_zero]
  have nonzero : (n : ℚ) * 2 ^ e ≠ 0 := mul_ne_zero (mod_cast zero) (by positivity)
  have close : spacingIn f (n * 2 ^ e) ≤ e := by
    rw [spacingIn_le_iff f nonzero, abs_mul, abs_of_pos (zpow_pos two_pos e : (0 : ℚ) < 2 ^ e),
      zpow_add₀ two_ne_zero, mul_comm, zpow_natCast]
    have : |(n : ℚ)| < 2 ^ f.mantissaBits := by exact_mod_cast small
    exact ⟨h, by gcongr⟩
  exact le_antisymm (nearestIn_le_of_le f close le_rfl) (le_nearestIn_of_le f close le_rfl)

theorem nearestIn_zpow (h : f.minExponent ≤ e) : nearestIn f (2 ^ e) = 2 ^ e := by
  have one : |(1 : Int)| < 2 ^ f.mantissaBits := by
    rw [abs_one]
    exact one_lt_pow₀ one_lt_two (by rw [mantissaBits_eq]; omega)
  simpa using nearestIn_scaled f one h

theorem spacingIn_mono (hp : 0 < p) (h : p ≤ q) : spacingIn f p ≤ spacingIn f q := by
  unfold spacingIn
  rw [abs_of_pos hp, abs_of_pos (hp.trans_le h)]
  have := Int.log_mono_right (b := 2) hp h
  omega

theorem least_le_spacingIn (q : ℚ) : f.minExponent ≤ spacingIn f q := le_max_right ..

theorem nearestIn_mono_of_pos (hp : 0 < p) (h : p ≤ q) : nearestIn f p ≤ nearestIn f q := by
  have hq : 0 < q := hp.trans_le h
  rcases (spacingIn_mono f hp h).lt_or_eq with less | same
  · -- a power of two lies between the two values
    have below := ((spacingIn_le_iff f hp.ne').1 le_rfl).2
    have above := zpow_le_of_lt_spacingIn f hq.ne' ((least_le_spacingIn f p).trans_lt less)
    rw [abs_of_pos hp, add_comm, zpow_add₀ two_ne_zero, zpow_natCast] at below
    rw [abs_of_pos hq, add_comm, zpow_add₀ two_ne_zero, zpow_natCast] at above
    calc nearestIn f p ≤ (2 ^ f.mantissaBits : Int) * 2 ^ spacingIn f p :=
          nearestIn_le_of_le f le_rfl (by exact_mod_cast below.le)
      _ = (2 ^ f.mantissaBitsWithoutImplicit : Int) * 2 ^ (spacingIn f p + 1) := by
          rw [zpow_add_one₀ two_ne_zero, mantissaBits_eq, pow_add]
          push_cast
          ring
      _ ≤ (2 ^ f.mantissaBitsWithoutImplicit : Int) * 2 ^ spacingIn f q := by
          gcongr
          exacts [one_le_two, less]
      _ ≤ nearestIn f q := le_nearestIn_of_le f le_rfl (by exact_mod_cast above)
  · unfold nearestIn
    rw [same]
    have := roundInt_mono (div_le_div_of_nonneg_right h (zpow_pos two_pos (spacingIn f q)).le)
    gcongr

/-- Rounding keeps the order. -/
theorem nearestIn_mono (h : p ≤ q) : nearestIn f p ≤ nearestIn f q := by
  rcases lt_or_ge 0 p with hp | hp
  · exact nearestIn_mono_of_pos f hp h
  rcases lt_or_ge q 0 with hq | hq
  · have := nearestIn_mono_of_pos f (neg_pos.2 hq) (neg_le_neg h)
    rw [nearestIn_neg, nearestIn_neg] at this
    linarith
  · have left := nearestIn_nonneg f (neg_nonneg.2 hp)
    rw [nearestIn_neg] at left
    have right := nearestIn_nonneg f hq
    linarith

/-- Rounding is off by at most half of the spacing. -/
theorem abs_nearestIn_sub_le_half (q : ℚ) : |nearestIn f q - q| ≤ 2 ^ spacingIn f q / 2 := by
  have unit : (0 : ℚ) < 2 ^ spacingIn f q := by positivity
  have scaled : nearestIn f q - q =
      (roundInt (q / 2 ^ spacingIn f q) - q / 2 ^ spacingIn f q) * 2 ^ spacingIn f q := by
    rw [nearestIn, sub_mul, div_mul_cancel₀ _ unit.ne']
  have := abs_roundInt_sub_le (q / 2 ^ spacingIn f q)
  rw [scaled, abs_mul, abs_of_pos unit]
  nlinarith

theorem nearestIn_abs (q : ℚ) : nearestIn f |q| = |nearestIn f q| := by
  rcases le_total 0 q with h | h
  · rw [abs_of_nonneg h, abs_of_nonneg (nearestIn_nonneg f h)]
  · have := nearestIn_nonneg f (neg_nonneg.2 h)
    rw [nearestIn_neg] at this
    rw [abs_of_nonpos h, nearestIn_neg, abs_of_nonpos (by linarith)]

end Format

/-! ## Doubles -/

/-- The exponent of the distance between doubles of the size of `q`. -/
def spacing (q : ℚ) : Int := max (Int.log 2 |q| - 52) (-1074)

/-- The double nearest to `q` if exponents are not bounded above, the one with even mantissa from
halfway. -/
def nearest (q : ℚ) : ℚ := roundInt (q / 2 ^ spacing q) * 2 ^ spacing q

theorem nearest_neg (q : ℚ) : nearest (-q) = -nearest q := nearestIn_neg .binary64 q

theorem nearest_zero : nearest 0 = 0 := nearestIn_zero .binary64

section Spacing
variable {p q : ℚ} {e n : Int}

/-- The spacing of doubles is given by their size. -/
theorem spacing_le_iff (hq : q ≠ 0) : spacing q ≤ e ↔ -1074 ≤ e ∧ |q| < 2 ^ (e + 53) :=
  spacingIn_le_iff .binary64 hq

theorem zpow_le_of_lt_spacing (hq : q ≠ 0) (h : -1074 < spacing q) :
    2 ^ (spacing q + 52) ≤ |q| :=
  zpow_le_of_lt_spacingIn .binary64 hq h

theorem nearest_nonneg (hq : 0 ≤ q) : 0 ≤ nearest q := nearestIn_nonneg .binary64 hq

/-- Doubles are rounded to themselves. -/
theorem nearest_scaled (small : |n| < 2 ^ 53) (h : -1074 ≤ e) :
    nearest (n * 2 ^ e) = n * 2 ^ e :=
  nearestIn_scaled .binary64 small h

theorem nearest_zpow (h : -1074 ≤ e) : nearest (2 ^ e) = 2 ^ e := nearestIn_zpow .binary64 h

theorem least_le_spacing (q : ℚ) : -1074 ≤ spacing q := le_max_right ..

/-- Rounding to doubles keeps the order. -/
theorem nearest_mono (h : p ≤ q) : nearest p ≤ nearest q := nearestIn_mono .binary64 h

/-- Rounding to doubles is off by at most half of the spacing. -/
theorem abs_nearest_sub_le_half (q : ℚ) : |nearest q - q| ≤ 2 ^ spacing q / 2 :=
  abs_nearestIn_sub_le_half .binary64 q

theorem nearest_abs (q : ℚ) : nearest |q| = |nearest q| := nearestIn_abs .binary64 q

theorem abs_nearest_le_zpow (low : -1074 ≤ e) (small : |q| ≤ 2 ^ e) : |nearest q| ≤ 2 ^ e := by
  have := nearest_mono small
  rwa [nearest_abs, nearest_zpow low] at this

/-- The error of rounding is at most half of the spacing of numbers that are not smaller. -/
theorem abs_nearest_sub_le_of_lt (least : -1075 ≤ e) (small : |q| < 2 ^ (e + 54)) :
    |nearest q - q| ≤ 2 ^ e := by
  by_cases zero : q = 0
  · rw [zero, nearest_zero, sub_zero, abs_zero]
    positivity
  have close : spacing q ≤ e + 1 := by
    rw [spacing_le_iff zero, add_assoc]
    exact ⟨by omega, small⟩
  calc |nearest q - q| ≤ 2 ^ spacing q / 2 := abs_nearest_sub_le_half q
    _ ≤ 2 ^ (e + 1) / 2 := by gcongr; exact one_le_two
    _ = 2 ^ e := by rw [zpow_add_one₀ two_ne_zero, mul_div_cancel_right₀ _ two_ne_zero]

/-- The error of rounding is small beside the result, or at most half of the least double. -/
theorem abs_nearest_sub_le (q : ℚ) :
    |nearest q - q| ≤ max (2 ^ (-53 : Int) * |nearest q|) (2 ^ (-1075 : Int)) := by
  by_cases zero : q = 0
  · rw [zero, nearest_zero, sub_zero, abs_zero]
    positivity
  refine (abs_nearest_sub_le_half q).trans ?_
  have half (e : Int) : (2 : ℚ) ^ e / 2 = 2 ^ (e - 1) := by
    rw [zpow_sub_one₀ two_ne_zero, div_eq_mul_inv]
  rcases (least_le_spacing q).eq_or_lt with least | more
  · rw [← least, half]
    exact le_max_right ..
  · refine le_max_of_le_left ?_
    have large := nearest_mono (zpow_le_of_lt_spacing zero more)
    rw [nearest_zpow (by omega), nearest_abs] at large
    calc (2 : ℚ) ^ spacing q / 2 = 2 ^ (-53 : Int) * 2 ^ (spacing q + 52) := by
          rw [half, ← zpow_add₀ two_ne_zero]
          ring_nf
      _ ≤ 2 ^ (-53 : Int) * |nearest q| := by gcongr

/-- Beside steps that are large enough the error of rounding is less than half of one. -/
theorem abs_nearest_sub_lt {s : ℚ} (least : 2 ^ (-1074 : Int) < s) (near : |q| < 2 ^ 52 * s) :
    |nearest q - q| < s / 2 := by
  by_cases zero : q = 0
  · rw [zero, nearest_zero, sub_zero, abs_zero]
    have : (0 : ℚ) < 2 ^ (-1074 : Int) := by positivity
    linarith
  refine (abs_nearest_sub_le_half q).trans_lt (div_lt_div_of_pos_right ?_ two_pos)
  rcases (least_le_spacing q).eq_or_lt with small | more
  · rwa [← small]
  · have large := (zpow_le_of_lt_spacing zero more).trans_lt near
    rw [add_comm, zpow_add₀ two_ne_zero] at large
    exact lt_of_mul_lt_mul_left large (by positivity)

end Spacing

end Curves.Number

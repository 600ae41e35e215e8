import Curves.Proofs.Number.Arithmetic
import Curves.Number.Decimal

/-!
# Doubles of decimals

The double of a decimal is its value rounded to nearest. Small decimals are computed with doubles:
the digits and the power of ten are exact, so only the product or the quotient is rounded. Decimals
whose exponent is very large or very small are not computed at all, because they are infinite or
rounded to zero.
-/

namespace Curves.Number
open Float.Model (Format UnpackedFloat totalExponent)
open Float.Model.UnpackedFloat (Sign)

def Decimal.value (d : Decimal) : ℚ := d.digits * 10 ^ d.exponent

/-! ## Powers of ten -/

/-- Whether an unpacked double is a natural number. -/
def isNatural (u : UnpackedFloat) (n : Nat) : Bool :=
  match u with
  | .finite .positive m e _ => m * 2 ^ e.toNat == n * 2 ^ (-e).toNat
  | _ => false

theorem rat_of_isNatural {u : UnpackedFloat} {n : Nat} (h : isNatural u n) :
    u.isFinite ∧ rat u = n := by
  unfold isNatural at h
  split at h
  · rename_i m e _
    refine ⟨rfl, ?_⟩
    have scaled : (m : ℚ) * 2 ^ e.toNat = n * 2 ^ (-e).toNat := by
      exact_mod_cast beq_iff_eq.1 h
    have power : (2 : ℚ) ^ e = 2 ^ e.toNat / 2 ^ (-e).toNat := by
      rw [← zpow_natCast, ← zpow_natCast, ← zpow_sub₀ two_ne_zero]
      congr 1
      omega
    rw [rat, signFactor, one_mul, power, ← mul_div_assoc, scaled]
    field_simp
  · cases h

theorem isNatural_power : ∀ i : Fin Float.exactlyRepresentablePowersOfTen.size,
    isNatural Float.exactlyRepresentablePowersOfTen[i].toModel.unpack (10 ^ i.val) := by
  decide +kernel

/-! ## Very large and very small decimals -/

theorem overflow_eq_zpow : overflow = 2 ^ (1024 : Int) := by
  rw [overflow_eq, ← zpow_natCast, ← zpow_add₀ two_ne_zero]
  rfl

theorem overflow_le_nearest {q : ℚ} (h : overflow ≤ q) : overflow ≤ nearest q := by
  have := nearest_mono h
  rwa [overflow_eq_zpow, nearest_zpow (by norm_num), ← overflow_eq_zpow] at this

/-- What is too large is rounded to infinity. -/
theorem infinity_roundsTo {q : ℚ} (h : overflow ≤ q) :
    RoundsTo (.ofModel (.pack (.infinity .positive))) q := by
  have unpacked : (Float.ofModel (.pack (.infinity .positive))).toModel.unpack =
      .infinity .positive := unpack_pack trivial
  have above := overflow_le_nearest h
  have := overflow_pos
  constructor
  · intro inside
    exact absurd above (not_le.2 (abs_lt.1 inside).2)
  · intro _
    exact unpacked
  · intro below
    linarith

theorem roundInt_eq_zero {q : ℚ} (hq : 0 ≤ q) (h : q < 1 / 2) : roundInt q = 0 := by
  have floor : ⌊q⌋ = 0 := by
    rw [Int.floor_eq_iff, Int.cast_zero]
    exact ⟨hq, by linarith⟩
  rw [roundInt, floor, Int.cast_zero, sub_zero, if_pos h]

/-- What is less than half of the least double is rounded to zero. -/
theorem nearest_eq_zero {q : ℚ} (hq : 0 ≤ q) (small : q < 2 ^ (-1075 : Int)) : nearest q = 0 := by
  rcases hq.eq_or_lt with rfl | positive
  · exact nearest_zero
  have least : spacing q = -1074 := by
    refine le_antisymm ((spacing_le_iff positive.ne').2 ⟨le_rfl, ?_⟩) (least_le_spacing q)
    rw [abs_of_pos positive]
    exact small.trans (zpow_lt_zpow_right₀ one_lt_two (by norm_num))
  have unit : (2 : ℚ) ^ (-1074 : Int) = 2 * 2 ^ (-1075 : Int) := by
    rw [← zpow_one_add₀ two_ne_zero]
    rfl
  have half : q / 2 ^ (-1074 : Int) < 1 / 2 := by
    rw [div_lt_iff₀ (by positivity), unit]
    linarith
  rw [nearest, least, roundInt_eq_zero (by positivity) half, Int.cast_zero, zero_mul]

theorem pow_two_le_pow_ten {a b : Int} (hb : 0 ≤ b) (h : a ≤ 3 * b) : (2 : ℚ) ^ a ≤ 10 ^ b :=
  calc (2 : ℚ) ^ a ≤ 2 ^ (3 * b) := zpow_le_zpow_right₀ one_le_two h
    _ = 8 ^ b := by
      rw [zpow_mul]
      norm_num
    _ ≤ 10 ^ b := zpow_le_zpow_left₀ hb (by norm_num) (by norm_num)

section OfScientific
variable {m : Nat} {e : Int}

theorem ofScientific_large (hm : m ≠ 0) (h : 2048 < e) : overflow ≤ (m : ℚ) * 10 ^ e := by
  have digits : (1 : ℚ) ≤ m := by exact_mod_cast Nat.one_le_iff_ne_zero.2 hm
  rw [overflow_eq_zpow]
  calc (2 : ℚ) ^ (1024 : Int) ≤ 10 ^ e := pow_two_le_pow_ten (by omega) (by omega)
    _ ≤ m * 10 ^ e := le_mul_of_one_le_left (by positivity) digits

theorem ofScientific_small (h : e < -(2048 + m.log2 : Int)) :
    (m : ℚ) * 10 ^ e < 2 ^ (-1075 : Int) := by
  have digits : (m : ℚ) < 2 ^ ((m.log2 : Int) + 1) := by
    exact_mod_cast Nat.lt_log2_self (n := m)
  have power : (10 : ℚ) ^ e ≤ 2 ^ e := by
    have := pow_two_le_pow_ten (a := -e) (b := -e) (by omega) (by omega)
    rw [zpow_neg, zpow_neg] at this
    exact (inv_le_inv₀ (by positivity) (by positivity)).1 this
  calc (m : ℚ) * 10 ^ e ≤ m * 2 ^ e := by gcongr
    _ < 2 ^ ((m.log2 : Int) + 1) * 2 ^ e := by gcongr
    _ = 2 ^ ((m.log2 : Int) + 1 + e) := (zpow_add₀ two_ne_zero _ _).symm
    _ ≤ 2 ^ (-1075 : Int) := zpow_le_zpow_right₀ one_le_two (by omega)

/-- Digits and the power of ten are multiplied or divided as unpacked doubles of any length. -/
theorem ofScientific_isNearest (hm : m ≠ 0) (large : ¬ 2048 < e)
    (small : ¬ e < -(2048 + m.log2 : Int)) :
    IsNearest (UnpackedFloat.ofScientific Format.binary64 m e) (m * 10 ^ e) := by
  have positive : 0 < m := Nat.pos_of_ne_zero hm
  have limit : (2 : Int) ^ Format.binary64.exponentBits = 2048 := rfl
  have bits : Format.binary64.mantissaBits = 53 := rfl
  unfold UnpackedFloat.ofScientific
  rw [dif_neg hm, limit, if_neg large, if_neg small]
  simp only [bits, Nat.cast_ofNat]
  split
  · rename_i nonneg
    have h₁ : 0 < m <<< 53 := by
      rw [Nat.shiftLeft_eq]
      positivity
    have h₂ : 0 < 10 ^ e.toNat := by positivity
    have long : (-53 : Int) + (0 : Int) ≤ Format.binary64.targetExponent
        (totalExponent (m <<< 53 * 10 ^ e.toNat) (-53 + 0)) := by
      have : 53 ≤ (m <<< 53 * 10 ^ e.toNat).log2 := by
        rw [Nat.le_log2 (Nat.mul_pos h₁ h₂).ne', Nat.shiftLeft_eq]
        calc 2 ^ 53 ≤ m * 2 ^ 53 := Nat.le_mul_of_pos_left _ positive
          _ ≤ m * 2 ^ 53 * 10 ^ e.toNat := Nat.le_mul_of_pos_right _ h₂
      rw [targetExponent_eq, totalExponent]
      omega
    have product := @mul_scaled_isNearest .positive .positive _ _ (-53) 0 h₁ h₂ long
    have left : rat (.finite .positive (m <<< 53) (-53) h₁) = m := by
      have := scaled_shiftLeft m 53 0
      rw [zpow_zero, mul_one] at this
      rw [rat, signFactor, one_mul]
      exact this
    have right : rat (.finite .positive (10 ^ e.toNat) 0 h₂) = 10 ^ e := by
      rw [rat, signFactor, one_mul, zpow_zero, mul_one, Nat.cast_pow, Nat.cast_ofNat,
        ← zpow_natCast, Int.toNat_of_nonneg nonneg]
    rw [left, right] at product
    exact product
  · rename_i negative
    have h₂ : 0 < 10 ^ (-e).toNat := by positivity
    have quotient := @div_scaled_isNearest .positive .positive _ _ 0 0 positive h₂
    have left : rat (.finite .positive m 0 positive) = m := by
      rw [rat, signFactor, one_mul, zpow_zero, mul_one]
    have right : rat (.finite .positive (10 ^ (-e).toNat) 0 h₂) = (10 ^ e)⁻¹ := by
      rw [rat, signFactor, one_mul, zpow_zero, mul_one, Nat.cast_pow, Nat.cast_ofNat,
        ← zpow_natCast, Int.toNat_of_nonneg (by omega), zpow_neg]
    rw [left, right, div_inv_eq_mul] at quotient
    exact quotient

/-- Decimals are rounded to the nearest double. -/
theorem model_ofScientific_roundsTo (m : Nat) (e : Int) :
    RoundsTo (.ofModel (Float.Model.ofScientific m e)) (m * 10 ^ e) := by
  have limit : (2 : Int) ^ Format.binary64.exponentBits = 2048 := rfl
  by_cases hm : m = 0
  · subst hm
    rw [Nat.cast_zero, zero_mul]
    exact (isNearest_self (u := .zero .positive) trivial rfl).roundsTo
  by_cases large : 2048 < e
  · have infinite : UnpackedFloat.ofScientific Format.binary64 m e = .infinity .positive := by
      unfold UnpackedFloat.ofScientific
      rw [dif_neg hm, limit, if_pos large]
    rw [Float.Model.ofScientific, infinite]
    exact infinity_roundsTo (ofScientific_large hm large)
  by_cases small : e < -(2048 + m.log2 : Int)
  · have zero : UnpackedFloat.ofScientific Format.binary64 m e = .zero .positive := by
      unfold UnpackedFloat.ofScientific
      rw [dif_neg hm, limit, if_neg large, if_pos small]
    have rounded : nearest (m * 10 ^ e) = 0 :=
      nearest_eq_zero (by positivity) (ofScientific_small small)
    rw [Float.Model.ofScientific, zero]
    exact IsNearest.roundsTo ⟨rfl, trivial, rounded.symm⟩
  · exact (ofScientific_isNearest hm large small).roundsTo

end OfScientific

/-! ## Decimals -/

theorem exactPower (i : Fin Float.exactlyRepresentablePowersOfTen.size) :
    Float.exactlyRepresentablePowersOfTen[i].isFinite ∧
      toRat Float.exactlyRepresentablePowersOfTen[i] = 10 ^ i.val := by
  have := rat_of_isNatural (isNatural_power i)
  exact_mod_cast this

/-- Literals are rounded to the nearest double, whichever way they are read. -/
theorem ofScientific_roundsTo (m : Nat) (s : Bool) (e : Nat) :
    RoundsTo (Float.ofScientific m s e) (m * 10 ^ (if s then -(e : Int) else e)) := by
  unfold Float.ofScientific
  split
  · rename_i short
    have index : m.toUInt64.toNat = m := by
      change m % 2 ^ 64 = m
      omega
    obtain ⟨finite, value⟩ := toRat_toFloat (n := m.toUInt64) (by omega)
    obtain ⟨finite', value'⟩ := exactPower ⟨e, Nat.lt_succ_of_le short.2⟩
    dsimp only [Fin.getElem_fin] at finite' value'
    rw [index] at value
    cases s with
    | true =>
      have quotient := div_roundsTo finite finite' (by rw [value']; positivity)
      rw [value, value', div_eq_mul_inv, ← zpow_natCast, ← zpow_neg] at quotient
      exact quotient
    | false =>
      have product := mul_roundsTo finite finite'
      rw [value, value', ← zpow_natCast] at product
      exact product
  · cases s with
    | true =>
      have power : (10 : ℚ) ^ Int.negOfNat e = 10 ^ (-(e : Int)) := by
        rw [Int.negOfNat_eq]
        rfl
      have := model_ofScientific_roundsTo m (Int.negOfNat e)
      rw [power] at this
      exact this
    | false => exact model_ofScientific_roundsTo m e

/-- The double of a decimal is its value rounded to nearest. -/
theorem Decimal.toFloat_roundsTo (d : Decimal) : RoundsTo d.toFloat d.value := by
  have := ofScientific_roundsTo d.digits (decide (d.exponent < 0)) d.exponent.natAbs
  have exponent : (if decide (d.exponent < 0) then -(d.exponent.natAbs : Int)
      else d.exponent.natAbs) = d.exponent := by
    split <;> rename_i sign <;> rw [decide_eq_true_iff] at sign <;> omega
  rwa [exponent] at this

end Curves.Number

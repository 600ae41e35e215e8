import Curves.Number.Integral
import Curves.Proofs.Number.Arithmetic

/-!
# Integral values

Rounding a double to an integral one is exact: the result is the integer that the value is rounded
to in the given direction. An integral double that fits is converted to a natural number as it is.
-/

namespace Curves.Number
open Float.Model (Format UnpackedFloat)
open Float.Model.UnpackedFloat (Sign)

/-! ## Quotients -/

theorem signFactor_quotient_down (s : Sign) (m : Nat) {k : Nat} (hk : 0 < k) :
    signFactor s * (Direction.down.quotient s m k : ℚ) = ⌊signFactor s * (m / k : ℚ)⌋ := by
  have positive : (0 : ℚ) < k := by exact_mod_cast hk
  have split : (m : ℚ) = k * (m / k : Nat) + (m % k : Nat) := by
    exact_mod_cast (Nat.div_add_mod m k).symm
  have proper : ((m % k : Nat) : ℚ) < k := by exact_mod_cast Nat.mod_lt m hk
  have rest : (0 : ℚ) ≤ (m % k : Nat) := Nat.cast_nonneg _
  cases s with
  | positive =>
    have floor : ⌊(m / k : ℚ)⌋ = (m / k : Nat) := by
      rw [Int.floor_eq_iff, le_div_iff₀ positive, div_lt_iff₀ positive, Int.cast_natCast]
      constructor <;> nlinarith
    rw [signFactor, one_mul, one_mul, floor]
    rfl
  | negative =>
    have carry : Direction.down.quotient .negative m k =
        if m % k = 0 then m / k else m / k + 1 := by
      simp only [Direction.quotient, Direction.carries, bne_iff_ne]
      split_ifs <;> omega
    have floor : ⌊-(m / k : ℚ)⌋ = -(Direction.down.quotient .negative m k : Int) := by
      rw [carry, Int.floor_eq_iff, ← neg_div, le_div_iff₀ positive, div_lt_iff₀ positive]
      generalize m / k = d at split
      split_ifs with whole
      · rw [whole, Nat.cast_zero] at split
        push_cast
        constructor <;> nlinarith
      · have : (1 : ℚ) ≤ (m % k : Nat) := by exact_mod_cast Nat.one_le_iff_ne_zero.2 whole
        push_cast
        constructor <;> nlinarith
    rw [signFactor, neg_one_mul, neg_one_mul, floor]
    push_cast
    rfl

theorem signFactor_quotient_up (s : Sign) (m : Nat) {k : Nat} (hk : 0 < k) :
    signFactor s * (Direction.up.quotient s m k : ℚ) = ⌈signFactor s * (m / k : ℚ)⌉ := by
  -- upwards is downwards for the opposite value
  have mirrored (s t : Sign) (h : signFactor t = -signFactor s)
      (same : Direction.up.quotient s m k = Direction.down.quotient t m k) :
      signFactor s * (Direction.up.quotient s m k : ℚ) = ⌈signFactor s * (m / k : ℚ)⌉ := by
    have := signFactor_quotient_down t m hk
    rw [h, neg_mul, neg_mul, ← same, Int.floor_neg, Int.cast_neg] at this
    exact neg_inj.1 this
  cases s with
  | positive => exact mirrored .positive .negative rfl rfl
  | negative => exact mirrored .negative .positive (neg_neg 1).symm rfl

/-! ## Rounding to integral doubles -/

theorem unpack_ofScaled_zero (s : Sign) : (ofScaled s 0 0).toModel.unpack = .zero s := by
  have zero : UnpackedFloat.round Format.binary64 s 0 0 = .zero s := by
    cases s <;> rfl
  rw [ofScaled, zero]
  exact unpack_pack (u := .zero s) trivial

theorem ofScaled_zero (s : Sign) : (ofScaled s 0 0).isFinite ∧ toRat (ofScaled s 0 0) = 0 :=
  ⟨congrArg UnpackedFloat.isFinite (unpack_ofScaled_zero s), congrArg rat (unpack_ofScaled_zero s)⟩

/-- Natural numbers of at most 53 bits are doubles with either sign. -/
theorem toRat_ofScaled (s : Sign) {n : Nat} (small : n < 2 ^ 53) :
    (ofScaled s n 0).isFinite ∧ toRat (ofScaled s n 0) = signFactor s * n := by
  rcases Nat.eq_zero_or_pos n with rfl | positive
  · rw [Nat.cast_zero, mul_zero]
    exact ofScaled_zero s
  have rounded := (round_isNearest s positive 0).roundsTo
  rw [zpow_zero, mul_one] at rounded
  have value : nearest (signFactor s * n) = signFactor s * n := by
    rw [nearest_signFactor, nearest_natCast small]
  rw [← value]
  refine rounded.inside ?_
  have one : |signFactor s| = 1 := by cases s <;> simp [signFactor]
  rw [value, abs_mul, one, one_mul, Nat.abs_cast]
  exact natCast_lt_overflow small

section ToIntegral
variable {direction : Direction} {integral : ℚ → Int} {x : Float}

/-- A number with bits behind the point as the quotient that is rounded. -/
theorem scaled_eq_div (m : Nat) {e : Int} (h : e < 0) :
    (m : ℚ) * 2 ^ e = m / (2 ^ (-e).toNat : Nat) := by
  have : (2 : ℚ) ^ (-e).toNat = (2 ^ e)⁻¹ := by
    rw [← zpow_natCast, Int.toNat_of_nonneg (by omega), zpow_neg]
  rw [Nat.cast_pow, Nat.cast_ofNat, this, div_inv_eq_mul]

/-- A rounded quotient has no more bits than what was divided. -/
theorem quotient_lt_two_pow (direction : Direction) (s : Sign) {m k : Nat} (hm : m < 2 ^ 53)
    (hk : 0 < k) : direction.quotient s m (2 ^ k) < 2 ^ 53 := by
  have half : 2 ≤ 2 ^ k := Nat.pow_le_pow_right two_pos hk
  have := Nat.div_le_div_left (a := m) half two_pos
  rcases direction.quotient_eq_or s m (2 ^ k) with h | h <;> rw [h] <;> omega

/-- A direction rounds values as `integral` does if it rounds quotients so. -/
theorem toRat_toIntegral (hx : x.isFinite) (fixed : ∀ n : Int, integral n = n)
    (quotients : ∀ (s : Sign) (m k : Nat), 0 < k →
      signFactor s * (direction.quotient s m k : ℚ) = integral (signFactor s * (m / k))) :
    (toIntegral direction x).isFinite ∧ toRat (toIntegral direction x) = integral (toRat x) := by
  have canonical := (isCanonical_unpack x).1
  unfold toIntegral
  cases unpacked : x.toModel.unpack with
  | notANumber =>
    have : x.toModel.unpack.isFinite := hx
    rw [unpacked] at this
    cases this
  | infinity s =>
    have : x.toModel.unpack.isFinite := hx
    rw [unpacked] at this
    cases this
  | zero s =>
    have zero : toRat x = 0 := congrArg rat unpacked
    refine ⟨hx, ?_⟩
    rw [zero]
    exact_mod_cast (fixed 0).symm
  | finite s m e h =>
    rw [unpacked] at canonical
    have value : toRat x = signFactor s * (m * 2 ^ e) := congrArg rat unpacked
    dsimp only
    split_ifs with whole
    · obtain ⟨k, rfl⟩ := Int.eq_ofNat_of_zero_le whole
      have power : toRat x = ((s.apply (m * 2 ^ k : Nat) : Int) : ℚ) := by
        rw [value]
        cases s <;> simp [signFactor, Sign.apply]
      refine ⟨hx, ?_⟩
      rw [power, fixed]
    · obtain ⟨finite, same⟩ := toRat_ofScaled s
        (quotient_lt_two_pow direction s canonical.1 (by omega : 0 < (-e).toNat))
      rw [value, scaled_eq_div m (not_le.1 whole), ← quotients s m _ (by positivity)]
      exact ⟨finite, same⟩

/-- The floor of a double is exact. -/
theorem toRat_floor (hx : x.isFinite) : (floor x).isFinite ∧ toRat (floor x) = ⌊toRat x⌋ :=
  toRat_toIntegral hx Int.floor_intCast fun s m _ hk => signFactor_quotient_down s m hk

/-- The ceiling of a double is exact. -/
theorem toRat_ceiling (hx : x.isFinite) : (ceiling x).isFinite ∧ toRat (ceiling x) = ⌈toRat x⌉ :=
  toRat_toIntegral hx Int.ceil_intCast fun s m _ hk => signFactor_quotient_up s m hk

theorem toIntegral_of_not_isFinite (direction : Direction) (hx : x.isFinite = false) :
    toIntegral direction x = x := by
  have infinite : x.toModel.unpack.isFinite = false := hx
  unfold toIntegral
  split
  · rename_i unpacked
    rw [unpacked] at infinite
    cases infinite
  · rfl

theorem isFinite_of_toIntegral (h : (toIntegral direction x).isFinite) : x.isFinite := by
  by_contra hx
  rw [toIntegral_of_not_isFinite direction (Bool.eq_false_iff.2 hx)] at h
  exact hx h

end ToIntegral

/-! ## Conversion to natural numbers -/

theorem roundToInt_eq {m n : Nat} {e : Int} (s : Sign) (value : (m : ℚ) * 2 ^ e = n) :
    UnpackedFloat.roundToInt s m e = s.apply n := by
  unfold UnpackedFloat.roundToInt UnpackedFloat.decreaseExponent UnpackedFloat.shiftToExponent
  dsimp only
  generalize hk : (e - 0).toNat = k
  generalize hl : (0 - (e - k)).toNat = l
  have described := (describes_exact (m <<< k)).shiftRight l
  have scaled : ((m <<< k : Nat) : ℚ) / 2 ^ l = n := by
    rw [← value, ← scaled_shiftLeft m k e, show e - k = -(l : Int) by omega, zpow_neg,
      zpow_natCast]
    rfl
  rw [scaled] at described
  obtain ⟨low, high⟩ := described.between
  generalize UnpackedFloat.ExtendedMantissa.mantissa _ = r at low high ⊢
  have : r ≤ n := by exact_mod_cast low
  have : n < r + 1 := by exact_mod_cast high
  rw [show r = n by omega]

theorem toNat_ofNatClamp (n : Nat) : (UInt64.ofNatClamp n).toNat = min n (2 ^ 64 - 1) := by
  rcases Nat.lt_or_ge n (2 ^ 64) with small | large
  · rw [UInt64.toNat_ofNatClamp_of_lt small, Nat.min_eq_left (by omega)]
  · have clamped : ¬ n < UInt64.size := not_lt.2 large
    rw [Nat.min_eq_right (by omega), UInt64.ofNatClamp, dif_neg clamped]
    rfl

/-- A double with the value of a natural number is converted to it, or to the greatest number. -/
theorem toNat_toUInt64_eq_min {x : Float} {n : Nat} (hx : x.isFinite) (value : toRat x = n) :
    x.toUInt64.toNat = min n (2 ^ 64 - 1) := by
  have finite : x.toModel.unpack.isFinite := hx
  have truncated : (x.toModel.unpack.toInt 0 (UInt64.size - 1)).toNat = n := by
    unfold toRat at value
    generalize x.toModel.unpack = u at finite value
    rcases u with _ | _ | s | ⟨s, m, e, h⟩
    · cases finite
    · cases finite
    · have : (0 : ℚ) = n := value
      obtain rfl : n = 0 := by exact_mod_cast this.symm
      rfl
    · have positive := scaled_pos h e
      have natural : (0 : ℚ) ≤ n := n.cast_nonneg
      cases s with
      | negative =>
        rw [rat, signFactor] at value
        linarith
      | positive =>
        rw [rat, signFactor, one_mul] at value
        rw [UnpackedFloat.toInt, roundToInt_eq .positive value]
        rfl
  change (UInt64.ofNatClamp (x.toModel.unpack.toInt 0 (UInt64.size - 1)).toNat).toNat = _
  rw [truncated, toNat_ofNatClamp]

/-- Small naturals are converted to words exactly. -/
theorem toNat_toUInt64 {x : Float} {n : Nat} (hx : x.isFinite) (value : toRat x = n)
    (small : n < 2 ^ 64) : x.toUInt64.toNat = n := by
  rw [toNat_toUInt64_eq_min hx value, Nat.min_eq_left (by omega)]

/-- The infinity is converted to the largest word. -/
theorem toNat_toUInt64_of_infinity {x : Float} (hx : x.toModel.unpack = .infinity .positive) :
    x.toUInt64.toNat = 2 ^ 64 - 1 := by
  change (UInt64.ofNatClamp (x.toModel.unpack.toInt 0 (UInt64.size - 1)).toNat).toNat = _
  rw [hx, toNat_ofNatClamp]
  rfl

end Curves.Number

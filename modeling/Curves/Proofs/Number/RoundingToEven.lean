import Curves.Proofs.Number.Integral
import Curves.Proofs.Number.ReadBack
import Curves.Proofs.Number.Signs

/-!
# Rounding halves to even

A value halfway between two integers goes to the even one although no step of the computation looks
at parity. Half of such a value is a quarter or three quarters above an integer, so it is rounded
without a tie, and twice the result is the even neighbour. Whether a value is halfway is found by
subtracting its integral part, which is exact, as are the division by two and the product with it.

Main statements:

* `roundInt_eq_ite`: the rounding of rational numbers;
* `toRat_roundEven`: the rounding of finite doubles;
* `sign?_roundEven`: the sign, which a zero keeps, too;
* `roundEven_eq_iff`: the one double that a double is rounded to.
-/

namespace Curves.Number
open Float.Model (Format UnpackedFloat)
open Float.Model.UnpackedFloat (Sign Accuracy roundWithAccuracy)

/-! ## Rational numbers -/

/-- The integer next to `q` towards zero. -/
def truncInt (q : ℚ) : Int := if 0 ≤ q then ⌊q⌋ else ⌈q⌉

/-- The integer nearest to `q`, the one away from zero from halfway. -/
def roundAwayInt (q : ℚ) : Int := if 0 ≤ q then ⌊q + 1 / 2⌋ else ⌈q - 1 / 2⌉

def IsHalfway (q : ℚ) : Prop := |q - truncInt q| = 1 / 2

instance (q : ℚ) : Decidable (IsHalfway q) := inferInstanceAs (Decidable (_ = _))

theorem truncInt_of_nonneg {q : ℚ} (hq : 0 ≤ q) : truncInt q = ⌊q⌋ := if_pos hq

theorem roundAwayInt_of_nonneg {q : ℚ} (hq : 0 ≤ q) : roundAwayInt q = ⌊q + 1 / 2⌋ := if_pos hq

theorem truncInt_intCast (n : Int) : truncInt n = n := by
  simp [truncInt]

theorem roundAwayInt_intCast (n : Int) : roundAwayInt n = n := by
  unfold roundAwayInt
  split_ifs
  · rw [Int.floor_eq_iff]
    constructor <;> linarith
  · rw [Int.ceil_eq_iff]
    constructor <;> linarith

theorem truncInt_neg (q : ℚ) : truncInt (-q) = -truncInt q := by
  unfold truncInt
  rcases lt_trichotomy q 0 with negative | rfl | positive
  · rw [if_pos (by linarith), if_neg (not_le.2 negative), Int.floor_neg]
  · simp
  · rw [if_neg (by linarith), if_pos positive.le, Int.ceil_neg]

theorem roundAwayInt_neg (q : ℚ) : roundAwayInt (-q) = -roundAwayInt q := by
  unfold roundAwayInt
  rcases lt_trichotomy q 0 with negative | rfl | positive
  · rw [if_pos (by linarith), if_neg (not_le.2 negative), ← Int.floor_neg]
    ring_nf
  · norm_num
  · rw [if_neg (by linarith), if_pos positive.le, ← Int.ceil_neg]
    ring_nf

/-- What is cut off is not larger than the number. -/
theorem abs_sub_truncInt_le (q : ℚ) : |q - truncInt q| ≤ |q| := by
  unfold truncInt
  split_ifs with sign
  · have := Int.floor_le q
    have : (0 : ℚ) ≤ ⌊q⌋ := by exact_mod_cast Int.floor_nonneg.2 sign
    rw [abs_of_nonneg (by linarith), abs_of_nonneg sign]
    linarith
  · have := Int.le_ceil q
    have : (⌈q⌉ : ℚ) ≤ 0 := by exact_mod_cast Int.ceil_nonpos.2 (not_le.1 sign).le
    rw [abs_of_nonpos (by linarith), abs_of_neg (not_le.1 sign)]
    linarith

/-- Halfway between two integers, half of the value is rounded to half of the even one. -/
theorem two_mul_roundAwayInt_half {q : ℚ} (hq : 0 ≤ q) (halfway : q - ⌊q⌋ = 1 / 2) :
    2 * roundAwayInt (q / 2) = ⌊q⌋ + ⌊q⌋ % 2 := by
  obtain ⟨k, parity⟩ : ∃ k, ⌊q⌋ = 2 * k ∨ ⌊q⌋ = 2 * k - 1 := ⟨(⌊q⌋ + 1) / 2, by omega⟩
  have rounded : roundAwayInt (q / 2) = k := by
    rw [roundAwayInt_of_nonneg (div_nonneg hq two_pos.le), Int.floor_eq_iff]
    rcases parity with even | odd
    · rw [even] at halfway
      push_cast at halfway
      constructor <;> linarith
    · rw [odd] at halfway
      push_cast at halfway
      constructor <;> linarith
  rw [rounded]
  omega

theorem isHalfway_of_nonneg {q : ℚ} (hq : 0 ≤ q) : IsHalfway q ↔ q - ⌊q⌋ = 1 / 2 := by
  rw [IsHalfway, truncInt_of_nonneg hq, abs_of_nonneg (sub_nonneg.2 (Int.floor_le q))]

theorem isHalfway_neg (q : ℚ) : IsHalfway (-q) ↔ IsHalfway q := by
  rw [IsHalfway, truncInt_neg, Int.cast_neg, ← neg_sub', abs_neg]
  rfl

/-- Doubling the rounded half is the even choice from halfway. -/
theorem roundInt_eq_ite_of_nonneg {q : ℚ} (hq : 0 ≤ q) :
    roundInt q = if IsHalfway q then 2 * roundAwayInt (q / 2) else roundAwayInt q := by
  have low := Int.floor_le q
  have high := Int.lt_floor_add_one q
  simp only [isHalfway_of_nonneg hq]
  by_cases halfway : q - ⌊q⌋ = 1 / 2
  · rw [if_pos halfway, two_mul_roundAwayInt_half hq halfway, roundInt, halfway,
      if_neg (lt_irrefl _), if_neg (lt_irrefl _)]
  · rw [if_neg halfway, roundAwayInt_of_nonneg hq, eq_comm, Int.floor_eq_iff, roundInt]
    split_ifs with down up
    · constructor <;> linarith
    · push_cast
      constructor <;> linarith
    · exact absurd (le_antisymm (not_lt.1 up) (not_lt.1 down)) halfway

/-- Rounding to the nearest integer, the even one from halfway, by rounding away from zero. -/
theorem roundInt_eq_ite (q : ℚ) :
    roundInt q = if IsHalfway q then 2 * roundAwayInt (q / 2) else roundAwayInt q := by
  rcases le_total 0 q with nonneg | nonpos
  · exact roundInt_eq_ite_of_nonneg nonneg
  · have mirrored := roundInt_eq_ite_of_nonneg (neg_nonneg.2 nonpos)
    simp only [isHalfway_neg] at mirrored
    rw [roundInt_neg, neg_div, roundAwayInt_neg, roundAwayInt_neg, mul_neg,
      ← apply_ite Neg.neg] at mirrored
    exact neg_inj.1 mirrored

theorem even_roundInt {q : ℚ} (halfway : |roundInt q - q| = 1 / 2) : Even (roundInt q) := by
  have low := Int.floor_le q
  have high := Int.lt_floor_add_one q
  unfold roundInt at halfway ⊢
  split_ifs at halfway ⊢ with down up
  · rw [abs_of_nonpos (by linarith)] at halfway
    linarith
  · push_cast at halfway
    rw [abs_of_nonneg (by linarith)] at halfway
    linarith
  · rw [Int.even_iff]
    omega

/-- An integer that is at most a half away, and even if it is as far as that, is the only one. -/
theorem eq_roundInt_iff {q : ℚ} {n : Int} :
    n = roundInt q ↔ |n - q| ≤ 1 / 2 ∧ (|n - q| = 1 / 2 → Even n) := by
  constructor
  · rintro rfl
    exact ⟨abs_roundInt_sub_le q, even_roundInt⟩
  · rintro ⟨near, even⟩
    have near' := abs_roundInt_sub_le q
    have apart := abs_sub_le (n : ℚ) q (roundInt q)
    rw [abs_sub_comm q] at apart
    by_contra differ
    have far : (1 : ℚ) ≤ |(n : ℚ) - roundInt q| := by
      exact_mod_cast Int.one_le_abs (sub_ne_zero.2 differ)
    have next : |n - roundInt q| ≤ 1 := by
      have : |(n : ℚ) - roundInt q| ≤ 1 := by linarith
      exact_mod_cast this
    -- two neighbours are as far away as that, and only one of them is even
    obtain ⟨k, hk⟩ := even (by linarith)
    obtain ⟨l, hl⟩ := even_roundInt (q := q) (by linarith)
    have := abs_le.1 next
    omega

/-! ### Quotients -/

section Quotients
variable {direction : Direction} {integral : ℚ → Int} {m k n : Nat}

/-- A direction that treats both signs alike rounds signed values as it rounds magnitudes. -/
theorem signFactor_quotient (odd : ∀ q, integral (-q) = -integral q)
    (unsigned : ∀ s, direction.quotient s m k = n) (magnitude : integral (m / k) = n) (s : Sign) :
    signFactor s * (direction.quotient s m k : ℚ) = integral (signFactor s * (m / k)) := by
  rw [unsigned]
  cases s <;> simp [signFactor, odd, magnitude]

theorem truncInt_div (m k : Nat) : truncInt (m / k) = (m / k : Nat) := by
  rw [truncInt_of_nonneg (by positivity), Rat.floor_natCast_div_natCast, Int.natCast_div]

theorem roundAwayInt_div (m : Nat) (hk : 0 < k) :
    roundAwayInt (m / k) = ((2 * m + k) / (2 * k) : Nat) := by
  have sum : (m / k : ℚ) + 1 / 2 = (2 * m + k : Nat) / (2 * k : Nat) := by
    have : (k : ℚ) ≠ 0 := by exact_mod_cast hk.ne'
    push_cast
    field_simp
  rw [roundAwayInt_of_nonneg (by positivity), sum, Rat.floor_natCast_div_natCast, Int.natCast_div]

theorem quotient_nearestAway (s : Sign) (m : Nat) (hk : 0 < k) :
    Direction.nearestAway.quotient s m k = (2 * m + k) / (2 * k) := by
  have split : 2 * m + k = 2 * k * (m / k) + (2 * (m % k) + k) := by
    have := Nat.div_add_mod m k
    nlinarith
  have proper := Nat.mod_lt m hk
  have carry : (2 * (m % k) + k) / (2 * k) = if k ≤ 2 * (m % k) then 1 else 0 := by
    split_ifs with half
    · exact Nat.div_eq_of_lt_le (by omega) (by omega)
    · exact Nat.div_eq_of_lt (by omega)
  rw [split, Nat.mul_add_div (by omega), carry]
  simp only [Direction.quotient, Direction.carries, decide_eq_true_eq]
  split_ifs <;> rfl

end Quotients

/-! ## Doubles -/

section Float
variable {x : Float}

/-- Truncation is exact. -/
theorem toRat_truncate (hx : x.isFinite) :
    (truncate x).isFinite ∧ toRat (truncate x) = truncInt (toRat x) :=
  toRat_toIntegral hx truncInt_intCast fun s m k _ =>
    signFactor_quotient truncInt_neg (fun _ => rfl) (truncInt_div m k) s

/-- Rounding away from halfway is exact. -/
theorem toRat_roundAway (hx : x.isFinite) :
    (roundAway x).isFinite ∧ toRat (roundAway x) = roundAwayInt (toRat x) :=
  toRat_toIntegral hx roundAwayInt_intCast fun s m _ hk =>
    signFactor_quotient roundAwayInt_neg (fun t => quotient_nearestAway t m hk)
      (roundAwayInt_div m hk) s

theorem isFinite_abs (x : Float) : x.abs.isFinite = x.isFinite := by
  change x.abs.toModel.unpack.isFinite = x.toModel.unpack.isFinite
  rw [unpack_abs]
  cases x.toModel.unpack <;> rfl

theorem toRat_abs (x : Float) : toRat x.abs = |toRat x| := by
  unfold toRat
  rw [unpack_abs]
  cases x.toModel.unpack with
  | finite s m e h =>
    rw [abs_rat s h e]
    exact one_mul _
  | _ => exact abs_zero.symm

theorem unpack_two :
    (2.0 : Float).toModel.unpack = .finite .positive (2 ^ 52) (-51) (by decide) := by
  rfl

theorem toRat_two : (2.0 : Float).isFinite ∧ toRat 2.0 = 2 := by
  obtain ⟨finite, value⟩ := toRat_of_unpack unpack_two
  rw [value, signFactor]
  exact ⟨finite, by norm_num⟩

/-- The mantissa and the exponent of a finite double. -/
theorem exists_scaled (hx : x.isFinite) :
    ∃ n e : Int, toRat x = n * 2 ^ e ∧ |n| < 2 ^ 53 ∧ -1074 ≤ e := by
  have canonical := (isCanonical_unpack x).1
  have finite : x.toModel.unpack.isFinite := hx
  unfold toRat
  generalize x.toModel.unpack = u at canonical finite
  rcases u with _ | _ | s | ⟨s, m, e, hm⟩
  · cases finite
  · cases finite
  · exact ⟨0, 0, by simp [rat]⟩
  · refine ⟨s.apply m, e, ?_, ?_, canonical.2.1⟩
    · cases s <;> simp [rat, signFactor, Sign.apply]
    · have : (m : Int) < 2 ^ 53 := by exact_mod_cast canonical.1
      cases s <;> simpa [Sign.apply] using this

theorem sub_truncInt_of_whole (n : Int) {e : Int} (whole : 0 ≤ e) :
    (n : ℚ) * 2 ^ e - truncInt (n * 2 ^ e) = 0 := by
  obtain ⟨k, rfl⟩ := Int.eq_ofNat_of_zero_le whole
  have integral : (n : ℚ) * 2 ^ (k : Int) = (n * 2 ^ k : Int) := by
    push_cast
    rfl
  rw [integral, truncInt_intCast, sub_self]

/-- What is cut off of a double is a double. -/
theorem nearest_sub_truncInt (hx : x.isFinite) :
    nearest (toRat x - truncInt (toRat x)) = toRat x - truncInt (toRat x) := by
  obtain ⟨n, e, value, bits, least⟩ := exists_scaled hx
  rcases le_or_gt 0 e with whole | fractional
  · rw [value, sub_truncInt_of_whole n whole, nearest_zero]
  · have unit : (0 : ℚ) < 2 ^ e := by positivity
    have size := abs_sub_truncInt_le (toRat x)
    generalize truncInt (toRat x) = t at size
    -- both are multiples of the last place of `x`
    have scaled : toRat x - t = (n - t * 2 ^ (-e).toNat : Int) * 2 ^ e := by
      have one : (2 : ℚ) ^ (-e).toNat * 2 ^ e = 1 := by
        rw [← zpow_natCast, Int.toNat_of_nonneg (by omega), ← zpow_add₀ two_ne_zero,
          neg_add_cancel, zpow_zero]
      push_cast
      rw [value, sub_mul, mul_assoc, one, mul_one]
    rw [scaled, value, abs_mul, abs_mul, mul_le_mul_iff_left₀ (abs_pos.2 unit.ne')] at size
    rw [scaled]
    exact nearest_scaled (lt_of_le_of_lt (by exact_mod_cast size) bits) least

/-- The integral part is subtracted without an error. -/
theorem toRat_sub_truncate (hx : x.isFinite) : (x - truncate x).isFinite ∧
    toRat (x - truncate x) = toRat x - truncInt (toRat x) := by
  obtain ⟨finite, value⟩ := toRat_truncate hx
  have rounded := sub_roundsTo hx finite
  have exact := nearest_sub_truncInt hx
  rw [value] at rounded
  rw [← exact]
  refine rounded.inside ?_
  rw [exact]
  exact (abs_sub_truncInt_le _).trans_lt (abs_toRat_lt x)

/-- The test for halfway is exact, as the difference to the truncated value is. -/
theorem halfway_iff (hx : x.isFinite) :
    ((x - truncate x).abs == 0.5) = true ↔ IsHalfway (toRat x) := by
  obtain ⟨finite, value⟩ := toRat_sub_truncate hx
  rw [beq_iff_toRat (by rwa [isFinite_abs]) toRat_half.1, toRat_abs, value, toRat_half.2]
  rfl

/-- A double that is halfway has bits behind the point, but it is not among the least doubles. -/
theorem exists_scaled_of_isHalfway (hx : x.isFinite) (halfway : IsHalfway (toRat x)) :
    ∃ n e : Int, toRat x = n * 2 ^ e ∧ |n| < 2 ^ 53 ∧ -54 < e ∧ e < 0 := by
  obtain ⟨n, e, value, bits, -⟩ := exists_scaled hx
  refine ⟨n, e, value, bits, ?_, ?_⟩
  · have size : |toRat x| < 2 ^ (53 + e) := by
      have : |(n : ℚ)| < 2 ^ (53 : Int) := by exact_mod_cast bits
      rw [value, abs_mul, zpow_add₀ two_ne_zero, abs_of_pos (by positivity : (0 : ℚ) < 2 ^ e)]
      gcongr
    have large := abs_sub_truncInt_le (toRat x)
    rw [halfway] at large
    have order : (2 : ℚ) ^ (-1 : Int) < 2 ^ (53 + e) :=
      lt_of_eq_of_lt (by norm_num) (large.trans_lt size)
    have := (zpow_lt_zpow_iff_right₀ one_lt_two).1 order
    omega
  · by_contra! whole
    rw [IsHalfway, value, sub_truncInt_of_whole n whole, abs_zero] at halfway
    norm_num at halfway

/-- A double that is halfway is halved without an error. -/
theorem toRat_div_two (hx : x.isFinite) (halfway : IsHalfway (toRat x)) :
    (x / 2.0).isFinite ∧ toRat (x / 2.0) = toRat x / 2 := by
  obtain ⟨n, e, value, bits, least, -⟩ := exists_scaled_of_isHalfway hx halfway
  have rounded := div_roundsTo hx toRat_two.1 (by rw [toRat_two.2]; norm_num)
  have exact : nearest (toRat x / 2) = toRat x / 2 := by
    have half : toRat x / 2 = n * 2 ^ (e - 1) := by
      rw [value, zpow_sub_one₀ two_ne_zero, mul_div_assoc, div_eq_mul_inv]
    rw [half]
    exact nearest_scaled bits (by omega)
  rw [toRat_two.2] at rounded
  rw [← exact]
  refine rounded.inside ?_
  have := abs_toRat_lt x
  rw [exact, abs_div, abs_two]
  linarith [abs_nonneg (toRat x)]

/-- A double that is halfway is rounded to a number that is not too large. -/
theorem abs_roundInt_lt_overflow (hx : x.isFinite) (halfway : IsHalfway (toRat x)) :
    |(roundInt (toRat x) : ℚ)| < overflow := by
  obtain ⟨n, e, value, bits, -, fractional⟩ := exists_scaled_of_isHalfway hx halfway
  have size : |toRat x| < 2 ^ (53 : Int) := by
    have : |(n : ℚ)| < 2 ^ (53 : Int) := by exact_mod_cast bits
    have : (2 : ℚ) ^ e ≤ 1 := zpow_le_one_of_nonpos₀ one_le_two fractional.le
    rw [value, abs_mul, abs_of_pos (by positivity : (0 : ℚ) < 2 ^ e)]
    nlinarith [abs_nonneg (n : ℚ)]
  have error := abs_roundInt_sub_le (toRat x)
  have := abs_sub_abs_le_abs_sub (roundInt (toRat x) : ℚ) (toRat x)
  have room : (2 : ℚ) ^ (53 : Int) + 1 / 2 < 2 ^ (54 : Int) := by norm_num
  have := zpow_lt_overflow (e := 54) (by norm_num)
  linarith

/-- Finite doubles are rounded as rational numbers are. -/
theorem toRat_roundEven (hx : x.isFinite) :
    (roundEven x).isFinite ∧ toRat (roundEven x) = roundInt (toRat x) := by
  rw [roundEven]
  by_cases halfway : IsHalfway (toRat x)
  · obtain ⟨finite, half⟩ := toRat_div_two hx halfway
    obtain ⟨finite', rounded⟩ := toRat_roundAway finite
    have product := mul_roundsTo toRat_two.1 finite'
    have exact := nearest_two_pow_mul finite' 1
    have value : 2 * toRat (roundAway (x / 2.0)) = roundInt (toRat x) := by
      rw [roundInt_eq_ite, if_pos halfway, rounded, half]
      push_cast
      rfl
    rw [pow_one] at exact
    rw [toRat_two.2] at product
    rw [if_pos ((halfway_iff hx).2 halfway), ← value, ← exact]
    refine product.inside ?_
    rw [exact, value]
    exact abs_roundInt_lt_overflow hx halfway
  · rw [if_neg (mt (halfway_iff hx).1 halfway), roundInt_eq_ite, if_neg halfway]
    exact toRat_roundAway hx

end Float

/-! ## Signs -/

/-- The sign of a number, which infinities and zeros have, too. -/
def sign? : UnpackedFloat → Option Sign
  | .infinity s | .zero s | .finite s _ _ _ => some s
  | .notANumber => none

section Signs
variable {x y : Float}

theorem sign?_bounded (u : UnpackedFloat) : sign? (bounded u) = sign? u := by
  cases u with
  | finite s m e h =>
    simp only [bounded]
    split <;> rfl
  | _ => rfl

theorem sign?_pack {u : UnpackedFloat} (hu : IsCanonical u) :
    sign? (Float.ofModel (.pack u)).toModel.unpack = sign? u := by
  rw [← sign?_bounded u, ← unpack_pack hu]

/-- The sign has no part in how a magnitude is rounded. -/
theorem sign?_roundWithAccuracy (f : Format) (s : Sign) (m : Nat) (e : Int) (acc : Accuracy) :
    sign? (roundWithAccuracy f s m e acc) = some s := by
  simp only [roundWithAccuracy]
  split <;> rfl

theorem sign?_ofScaled (s : Sign) (n : Nat) : sign? (ofScaled s n 0).toModel.unpack = some s := by
  rcases Nat.eq_zero_or_pos n with rfl | positive
  · rw [unpack_ofScaled_zero]
    rfl
  · rw [ofScaled, sign?_pack (round_isNearest s positive 0).canonical]
    exact sign?_roundWithAccuracy ..

/-- Rounding to an integer keeps the sign, also that of a zero. -/
theorem sign?_toIntegral (direction : Direction) (x : Float) :
    sign? (toIntegral direction x).toModel.unpack = sign? x.toModel.unpack := by
  unfold toIntegral
  cases unpacked : x.toModel.unpack with
  | finite s m e h =>
    dsimp only
    split
    · rw [unpacked]
    · exact sign?_ofScaled ..
  | _ => exact congrArg sign? unpacked

theorem sign?_div_two (hx : x.isFinite) :
    sign? (x / 2.0).toModel.unpack = sign? x.toModel.unpack := by
  refine (sign?_pack (isCanonical_div ..)).trans ?_
  have finite : x.toModel.unpack.isFinite := hx
  rw [unpack_two]
  generalize x.toModel.unpack = u at finite
  rcases u with _ | _ | s | ⟨s, m, e, h⟩
  · cases finite
  · cases finite
  · cases s <;> rfl
  · refine (sign?_roundWithAccuracy ..).trans ?_
    cases s <;> rfl

theorem sign?_two_mul (hx : x.isFinite) :
    sign? (2.0 * x).toModel.unpack = sign? x.toModel.unpack := by
  refine (sign?_pack (isCanonical_mul (isCanonical_unpack _).1 (isCanonical_unpack x).1)).trans ?_
  have finite : x.toModel.unpack.isFinite := hx
  rw [unpack_two]
  generalize x.toModel.unpack = u at finite
  rcases u with _ | _ | s | ⟨s, m, e, h⟩
  · cases finite
  · cases finite
  · cases s <;> rfl
  · refine (sign?_roundWithAccuracy ..).trans ?_
    cases s <;> rfl

/-- Rounding keeps the sign, also that of a zero. -/
theorem sign?_roundEven (hx : x.isFinite) :
    sign? (roundEven x).toModel.unpack = sign? x.toModel.unpack := by
  rw [roundEven]
  split_ifs with tie
  · obtain ⟨finite, -⟩ := toRat_div_two hx ((halfway_iff hx).1 tie)
    rw [sign?_two_mul (toRat_roundAway finite).1, roundAway, sign?_toIntegral, sign?_div_two hx]
  · exact sign?_toIntegral ..

/-- The sign tells negative numbers and the negative zero. -/
theorem sign?_eq_negative_iff (x : Float) :
    sign? x.toModel.unpack = some .negative ↔ x < 0.0 ∨ x = -0.0 := by
  have zero : (0.0 : Float).toModel.unpack = .zero .positive := rfl
  have negative : x.toModel.unpack = .zero .negative ↔ x = -0.0 := unpack_inj (w := -0.0)
  rw [lt_iff_compare, zero, ← negative]
  rcases x.toModel.unpack with (_ | _) | _ | (_ | _) | ⟨_ | _, _, _, _⟩ <;>
    simp [sign?, UnpackedFloat.compare]

/-- A zero is known by its sign. -/
theorem eq_of_toRat_eq_zero (hy : y.isFinite) (zero : toRat y = 0)
    (sign : sign? y.toModel.unpack = sign? x.toModel.unpack) :
    y = if x < 0.0 ∨ x = -0.0 then -0.0 else 0.0 := by
  have minus := sign?_eq_negative_iff x
  rw [← sign] at minus
  have finite : y.toModel.unpack.isFinite := hy
  unfold toRat at zero
  cases unpacked : y.toModel.unpack with
  | notANumber | infinity s =>
    rw [unpacked] at finite
    cases finite
  | zero s =>
    rw [unpacked] at minus
    cases s with
    | negative =>
      rw [if_pos (minus.1 rfl)]
      exact unpack_inj.1 unpacked
    | positive =>
      rw [if_neg fun less => by cases minus.2 less]
      exact unpack_inj.1 unpacked
  | finite s m e h =>
    rw [unpacked] at zero
    have size := abs_rat s h e
    rw [zero, abs_zero] at size
    exact absurd size (scaled_pos h e).ne

end Signs

/-! ## The rounded double -/

/-- The double `y` is the integral double that `x` is rounded to, the even one from halfway. -/
structure RoundsToEven (x y : Float) : Prop where
  /-- A finite double goes to an integer that is at most a half away, and even if it is as far as
  that. A zero has the sign of the double. -/
  finite : x.isFinite → y.isFinite ∧ ∃ n : Int, toRat y = n ∧ |n - toRat x| ≤ 1 / 2 ∧
    (|n - toRat x| = 1 / 2 → Even n) ∧
    (n = 0 → y = if x < 0.0 ∨ x = -0.0 then -0.0 else 0.0)
  /-- Infinities and NaN stay what they are. -/
  kept : x.isFinite = false → y = x

/-- NaN and infinities are kept. -/
theorem roundEven_of_not_isFinite {x : Float} (hx : x.isFinite = false) : roundEven x = x := by
  have whole : ¬((x - truncate x).abs == 0.5) = true := by
    intro tie
    have rest : (x - truncate x).abs.isFinite :=
      isFinite_of_compare_eq (beq_iff_eq.1 tie) toRat_half.1
    rw [isFinite_abs] at rest
    exact Bool.eq_false_iff.1 hx (isFinite_of_sub rest).1
  rw [roundEven, if_neg whole]
  exact toIntegral_of_not_isFinite .nearestAway hx

/-- Every double is rounded to the nearest integral double, to the even one from halfway, and to
nothing else. -/
theorem roundEven_eq_iff (x y : Float) : roundEven x = y ↔ RoundsToEven x y := by
  constructor
  · rintro rfl
    refine ⟨fun hx => ?_, roundEven_of_not_isFinite⟩
    obtain ⟨finite, value⟩ := toRat_roundEven hx
    obtain ⟨near, even⟩ := eq_roundInt_iff.1 (rfl : roundInt (toRat x) = _)
    refine ⟨finite, _, value, near, even, fun zero => ?_⟩
    rw [zero, Int.cast_zero] at value
    exact eq_of_toRat_eq_zero finite value (sign?_roundEven hx)
  · rintro ⟨finite, kept⟩
    cases hx : x.isFinite with
    | false => rw [kept hx, roundEven_of_not_isFinite hx]
    | true =>
      obtain ⟨hy, n, value, near, even, zero⟩ := finite hx
      obtain rfl := eq_roundInt_iff.2 ⟨near, even⟩
      obtain ⟨finite', value'⟩ := toRat_roundEven hx
      by_cases none : roundInt (toRat x) = 0
      · rw [zero none]
        rw [none, Int.cast_zero] at value'
        exact eq_of_toRat_eq_zero finite' value' (sign?_roundEven hx)
      · refine eq_of_toRat_eq finite' hy (value'.trans value.symm) ?_
        rw [value']
        exact_mod_cast none

end Curves.Number

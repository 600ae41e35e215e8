import Curves.Proofs.Number.Single

/-!
# Interpolation

A value between `a` and `b` is computed as `a + (b - a) * t`, with three roundings. The difference
may be rounded away from zero, but as long as `t` is less than one the product is not: the greatest
number below one is so far from it that the part taken off exceeds the error. So the result stays
between `a` and `b`, unless the difference overflows.
-/

namespace Curves.Number
open Float.Model (Format UnpackedFloat)

/-! ## Products with numbers below one -/

section Format
variable {f : Format} {q t : ℚ}

/-- A value of the format's least spacing is rounded to itself if its own spacing is the least. -/
theorem nearestIn_of_spacingIn_eq {n : Int} (hq : q = n * 2 ^ f.minExponent)
    (least : spacingIn f q = f.minExponent) : nearestIn f q = q := by
  have unit : (2 : ℚ) ^ f.minExponent ≠ 0 := by positivity
  rw [nearestIn, least]
  nth_rewrite 1 [hq]
  rw [mul_div_cancel_right₀ _ unit, roundInt_intCast, ← hq]

theorem exists_nearestIn_eq (hq : 0 ≤ q) : ∃ n : Int, nearestIn f q = n * 2 ^ spacingIn f q ∧
    0 ≤ n ∧ n ≤ 2 ^ f.mantissaBits ∧ (n - 1 / 2) * 2 ^ spacingIn f q ≤ q := by
  have unit : (0 : ℚ) < 2 ^ spacingIn f q := by positivity
  refine ⟨_, rfl, ?_, ?_, ?_⟩
  · have := roundInt_mono (div_nonneg hq unit.le)
    rwa [show roundInt 0 = 0 from roundInt_intCast 0] at this
  · by_cases zero : q = 0
    · rw [zero, zero_div, show roundInt 0 = 0 from roundInt_intCast 0]
      positivity
    have above := ((spacingIn_le_iff f zero).1 le_rfl).2
    rw [abs_of_nonneg hq, add_comm, zpow_add₀ two_ne_zero, ← div_lt_iff₀ unit, zpow_natCast]
      at above
    have := roundInt_mono (q := (2 ^ f.mantissaBits : Int)) (by exact_mod_cast above.le)
    rwa [roundInt_intCast] at this
  · have error := (abs_le.1 (abs_roundInt_sub_le (q / 2 ^ spacingIn f q))).2
    rw [← le_div_iff₀ unit]
    linarith

/-- What has been rounded is not changed by rounding. -/
theorem nearestIn_nearestIn_of_nonneg (hq : 0 ≤ q) :
    nearestIn f (nearestIn f q) = nearestIn f q := by
  obtain ⟨n, value, positive, most, -⟩ := exists_nearestIn_eq (f := f) hq
  have least := least_le_spacingIn f q
  rw [value]
  rcases most.lt_or_eq with less | rfl
  · exact nearestIn_scaled f (by rwa [abs_of_nonneg positive]) least
  · have power : ((2 ^ f.mantissaBits : Int) : ℚ) * 2 ^ spacingIn f q =
        2 ^ ((f.mantissaBits : Int) + spacingIn f q) := by
      rw [zpow_add₀ two_ne_zero, zpow_natCast]
      push_cast
      rfl
    rw [power]
    exact nearestIn_zpow f (by omega)

/-- What is less than halfway to a multiple of the spacing is rounded to less than the multiple. -/
theorem nearestIn_le_pred {n : Int} {e : Int} (least : f.minExponent ≤ e)
    (large : 2 ^ f.mantissaBitsWithoutImplicit < n) (most : n ≤ 2 ^ f.mantissaBits)
    (h : q < (n - 1 / 2) * 2 ^ e) : nearestIn f q ≤ (n - 1 : Int) * 2 ^ e := by
  have unit : (0 : ℚ) < 2 ^ e := by positivity
  have small : |n - 1| < 2 ^ f.mantissaBits := by
    have : (0 : Int) < 2 ^ f.mantissaBitsWithoutImplicit := by positivity
    rw [abs_of_nonneg (by omega)]
    omega
  have exact := nearestIn_scaled f small least
  rcases le_or_gt q ((n - 1 : Int) * 2 ^ e) with below | above
  · exact exact ▸ nearestIn_mono f below
  · -- between the two multiples the spacing is their distance
    have low : (2 : ℚ) ^ (e + f.mantissaBitsWithoutImplicit) ≤ q := by
      refine le_trans ?_ above.le
      rw [add_comm, zpow_add₀ two_ne_zero, zpow_natCast]
      gcongr
      exact_mod_cast (by omega : (2 : Int) ^ f.mantissaBitsWithoutImplicit ≤ n - 1)
    have positive : 0 < q := lt_of_lt_of_le (by positivity) low
    have high : q < 2 ^ (e + f.mantissaBits) := by
      rw [add_comm, zpow_add₀ two_ne_zero, zpow_natCast]
      refine h.trans_le ?_
      gcongr
      have : (n : ℚ) ≤ 2 ^ f.mantissaBits := by exact_mod_cast most
      linarith
    have spacing : spacingIn f q = e := by
      refine le_antisymm ((spacingIn_le_iff f positive.ne').2 ⟨least, ?_⟩) ?_
      · rwa [abs_of_pos positive]
      · have := (Int.zpow_le_iff_le_log one_lt_two positive (b := 2)).1 (by exact_mod_cast low)
        rw [spacingIn, abs_of_pos positive]
        omega
    have error := (abs_le.1 (abs_nearestIn_sub_le_half f q)).2
    rw [nearestIn, spacing] at error ⊢
    have less : ((roundInt (q / 2 ^ e) : Int) : ℚ) * 2 ^ e < n * 2 ^ e := by linarith
    have : roundInt (q / 2 ^ e) < n := by exact_mod_cast lt_of_mul_lt_mul_right less unit.le
    gcongr
    omega

/-- A rounded value times a number below one is rounded to at most the exact value. -/
theorem nearestIn_mul_le {n : Int} (hq : q = n * 2 ^ f.minExponent) (nonneg : 0 ≤ q)
    (below : t ≤ 1 - 2 ^ (-(f.mantissaBits : Int))) : nearestIn f (nearestIn f q * t) ≤ q := by
  have positive := nearestIn_nonneg f nonneg
  have shrink : (0 : ℚ) < 2 ^ (-(f.mantissaBits : Int)) := by positivity
  rcases le_or_gt (nearestIn f q) q with down | up
  · calc nearestIn f (nearestIn f q * t) ≤ nearestIn f (nearestIn f q) :=
          nearestIn_mono f (mul_le_of_le_one_right positive (by linarith))
      _ = nearestIn f q := nearestIn_nearestIn_of_nonneg nonneg
      _ ≤ q := down
  · obtain ⟨m, value, -, most, half⟩ := exists_nearestIn_eq (f := f) nonneg
    have nonzero : q ≠ 0 := by
      rintro rfl
      rw [nearestIn_zero] at up
      exact lt_irrefl _ up
    have unit : (0 : ℚ) < 2 ^ spacingIn f q := by positivity
    have more : f.minExponent < spacingIn f q := by
      refine (least_le_spacingIn f q).lt_of_ne fun least => ?_
      exact up.ne' (nearestIn_of_spacingIn_eq hq least.symm)
    have full := zpow_le_of_lt_spacingIn f nonzero more
    rw [abs_of_nonneg nonneg, add_comm, zpow_add₀ two_ne_zero, zpow_natCast] at full
    have large : (2 : ℚ) ^ f.mantissaBitsWithoutImplicit < m :=
      lt_of_mul_lt_mul_right (full.trans_lt (value ▸ up)) unit.le
    -- so many bits are left that what is taken off is more than half of the spacing
    have taken : 1 / 2 < m * (2 : ℚ) ^ (-(f.mantissaBits : Int)) := by
      rw [zpow_neg, zpow_natCast, ← div_eq_mul_inv, lt_div_iff₀ (by positivity), mantissaBits_eq,
        pow_add, pow_one]
      linarith
    have product : nearestIn f q * t < (m - 1 / 2) * 2 ^ spacingIn f q :=
      calc nearestIn f q * t ≤ m * 2 ^ spacingIn f q * (1 - 2 ^ (-(f.mantissaBits : Int))) := by
            rw [← value]
            gcongr
        _ = (m - m * 2 ^ (-(f.mantissaBits : Int))) * 2 ^ spacingIn f q := by ring
        _ < (m - 1 / 2) * 2 ^ spacingIn f q := by gcongr
    refine (nearestIn_le_pred more.le (by exact_mod_cast large) most product).trans ?_
    refine le_trans ?_ half
    push_cast
    gcongr
    norm_num

/-- The rounded product lies between zero and the exact difference. -/
theorem nearestIn_mul_between {n : Int} (hq : q = n * 2 ^ f.minExponent) (ht : 0 ≤ t)
    (below : t ≤ 1 - 2 ^ (-(f.mantissaBits : Int))) :
    (0 ≤ q → 0 ≤ nearestIn f (nearestIn f q * t) ∧ nearestIn f (nearestIn f q * t) ≤ q) ∧
      (q ≤ 0 → q ≤ nearestIn f (nearestIn f q * t) ∧ nearestIn f (nearestIn f q * t) ≤ 0) := by
  have nonneg {p : ℚ} (hp : 0 ≤ p) : 0 ≤ nearestIn f (nearestIn f p * t) :=
    nearestIn_nonneg f (mul_nonneg (nearestIn_nonneg f hp) ht)
  refine ⟨fun hq' => ⟨nonneg hq', nearestIn_mul_le hq hq' below⟩, fun hq' => ?_⟩
  have mirrored := neg_nonneg.2 hq'
  have low := nonneg mirrored
  have high := nearestIn_mul_le (q := -q) (n := -n) (by rw [hq]; push_cast; ring) mirrored below
  rw [nearestIn_neg, neg_mul, nearestIn_neg] at low high
  constructor <;> linarith

end Format

/-! ## Values of canonical numbers -/

section Canonical
variable {f : Format} {u v : UnpackedFloat}

theorem exists_rat_eq (hu : CanonicalIn f u) : ∃ n : Int, rat u = n * 2 ^ f.minExponent := by
  rcases u with _ | _ | s | ⟨s, m, e, hm⟩
  · exact ⟨0, by simp [rat]⟩
  · exact ⟨0, by simp [rat]⟩
  · exact ⟨0, by simp [rat]⟩
  · obtain ⟨k, hk⟩ := Int.eq_ofNat_of_zero_le (Int.sub_nonneg_of_le hu.2.1)
    refine ⟨s.apply (m * 2 ^ k : Nat), ?_⟩
    have split : (2 : ℚ) ^ e = 2 ^ k * 2 ^ f.minExponent := by
      rw [show e = k + f.minExponent by omega, zpow_add₀ two_ne_zero, zpow_natCast]
    rw [rat, split]
    cases s <;> simp [signFactor, UnpackedFloat.Sign.apply] <;> ring

theorem exists_rat_sub (hu : CanonicalIn f u) (hv : CanonicalIn f v) :
    ∃ n : Int, rat v - rat u = n * 2 ^ f.minExponent := by
  obtain ⟨m, hm⟩ := exists_rat_eq hu
  obtain ⟨n, hn⟩ := exists_rat_eq hv
  refine ⟨n - m, ?_⟩
  rw [hm, hn]
  push_cast
  ring

/-- A mantissa with so low an exponent is at most a half. -/
theorem scaled_le_half {m p : Nat} {e : Int} (bits : m < 2 ^ p) (short : e < -p) :
    (m : ℚ) * 2 ^ e ≤ 1 / 2 := by
  have small : (m : ℚ) < 2 ^ p := by exact_mod_cast bits
  calc (m : ℚ) * 2 ^ e ≤ 2 ^ p * 2 ^ (-(p : Int) - 1) := by
        gcongr
        exacts [one_le_two, by omega]
    _ = 1 / 2 := by
      rw [← zpow_natCast, ← zpow_add₀ two_ne_zero, show (p : Int) + (-p - 1) = -1 by omega,
        zpow_neg_one, one_div]

/-- A multiple of a power of two that is less than one is less by at least the power. -/
theorem scaled_le_one_sub {m : Nat} {e : Int} (hm : 0 < m) (h : (m : ℚ) * 2 ^ e < 1) :
    (m : ℚ) * 2 ^ e ≤ 1 - 2 ^ e := by
  have negative : e < 0 := by
    by_contra! large
    have one : (1 : ℚ) ≤ m := by exact_mod_cast hm
    have := one_le_mul_of_one_le_of_one_le one (one_le_zpow₀ one_le_two large (a := (2 : ℚ)))
    linarith
  obtain ⟨k, rfl⟩ : ∃ k : Nat, e = -k := ⟨(-e).toNat, by omega⟩
  have unit : (0 : ℚ) < 2 ^ k := by positivity
  rw [zpow_neg, zpow_natCast, ← div_eq_mul_inv] at h ⊢
  have whole : m + 1 ≤ 2 ^ k := by exact_mod_cast (div_lt_one unit).1 h
  rw [← one_div, le_sub_iff_add_le, ← add_div, div_le_one unit]
  exact_mod_cast whole

/-- The greatest number below one. -/
theorem rat_le_of_lt_one (hu : CanonicalIn f u) (h : rat u < 1) :
    rat u ≤ 1 - 2 ^ (-(f.mantissaBits : Int)) := by
  have half : (2 : ℚ) ^ (-(f.mantissaBits : Int)) ≤ 1 / 2 :=
    (zpow_le_zpow_right₀ one_le_two (by rw [mantissaBits_eq]; omega)).trans
      (show (2 : ℚ) ^ (-1 : Int) ≤ 1 / 2 by norm_num)
  have nonneg : (0 : ℚ) ≤ 1 - 2 ^ (-(f.mantissaBits : Int)) := by linarith
  rcases u with _ | _ | s | ⟨s, m, e, hm⟩
  · exact nonneg
  · exact nonneg
  · exact nonneg
  · have positive := scaled_pos hm e
    cases s with
    | negative =>
      rw [rat, signFactor]
      linarith
    | positive =>
      rw [rat, signFactor, one_mul] at h ⊢
      rcases lt_or_ge e (-f.mantissaBits) with short | long
      · have := scaled_le_half hu.1 short
        linarith
      · have power := zpow_le_zpow_right₀ (one_le_two (α := ℚ)) long
        have := scaled_le_one_sub hm h
        linarith

end Canonical

/-! ## Single precision -/

/-- Whether `y` is finite and lies between `a` and `b`, the smaller of which may be either. -/
def Between (a b y : Float32) : Prop := y.isFinite ∧ (a ≤ y ∧ y ≤ b ∨ b ≤ y ∧ y ≤ a)

section Single
variable {a b t y : Float32}

theorem between_iff (ha : a.isFinite) (hb : b.isFinite) (hy : y.isFinite) :
    Between a b y ↔ singleRat a ≤ singleRat y ∧ singleRat y ≤ singleRat b ∨
      singleRat b ≤ singleRat y ∧ singleRat y ≤ singleRat a := by
  rw [Between, single_le_iff ha hy, single_le_iff hy hb, single_le_iff hb hy, single_le_iff hy ha]
  exact and_iff_right hy

/-- What is rounded from a value between two numbers is between them. -/
theorem RoundsToSingle.between {q : ℚ} (h : RoundsToSingle y q) (ha : a.isFinite) (hb : b.isFinite)
    (inside : singleRat a ≤ q ∧ q ≤ singleRat b ∨ singleRat b ≤ q ∧ q ≤ singleRat a) :
    Between a b y := by
  have rounded := inside.imp (And.imp (nearestIn_mono .binary32) (nearestIn_mono .binary32))
    (And.imp (nearestIn_mono .binary32) (nearestIn_mono .binary32))
  rw [nearestIn_singleRat ha, nearestIn_singleRat hb] at rounded
  have finite : y.isFinite := by
    rcases rounded with ⟨low, high⟩ | ⟨low, high⟩ <;> exact h.isFinite_of_between low high
  rwa [between_iff ha hb finite, h.singleRat_eq finite]

/-- What is rounded from one value lies between the same numbers. -/
theorem Between.of_rounds {z : Float32} {q : ℚ} (ha : a.isFinite) (hb : b.isFinite)
    (hy : RoundsToSingle y q) (hz : RoundsToSingle z q) (h : Between a b y) : Between a b z := by
  have value := hy.singleRat_eq h.1
  have finite := hz.isFinite_of_between value.le value.ge
  rw [between_iff ha hb h.1, value] at h
  rwa [between_iff ha hb finite, hz.singleRat_eq finite]

/-- The product of a finite difference and a number of at most one is finite. -/
theorem isFinite_mul_of_le_one (ht : t.isFinite) (hy : y.isFinite) (nonneg : 0 ≤ singleRat t)
    (most : singleRat t ≤ 1) : (y * t).isFinite := by
  refine ((single_mul_rounds hy ht).inside ?_).1
  have smaller : |singleRat y * singleRat t| ≤ |singleRat y| := by
    rw [abs_mul, abs_of_nonneg nonneg]
    exact mul_le_of_le_one_right (abs_nonneg _) most
  have := nearestIn_mono .binary32 smaller
  rw [nearestIn_abs, nearestIn_abs, nearestIn_singleRat hy] at this
  exact this.trans_lt (abs_singleRat_lt y)

/-- A value interpolated with a fraction below one is finite and between both ends, if their
difference is finite. -/
theorem interpolation_between (ha : a.isFinite) (hb : b.isFinite) (ht : t.isFinite)
    (difference : (b - a).isFinite) (nonneg : 0 ≤ singleRat t) (less : singleRat t < 1) :
    Between a b (a + (b - a) * t) := by
  have product := isFinite_mul_of_le_one ht difference nonneg less.le
  obtain ⟨n, exact⟩ : ∃ n : Int, singleRat b - singleRat a = n * _ :=
    exists_rat_sub (canonicalIn_single a).1 (canonicalIn_single b).1
  have value := (single_mul_rounds difference ht).singleRat_eq product
  rw [(single_sub_rounds hb ha).singleRat_eq difference] at value
  obtain ⟨up, down⟩ := nearestIn_mul_between exact nonneg
    (rat_le_of_lt_one (canonicalIn_single t).1 less)
  rw [← value] at up down
  refine (single_add_rounds ha product).between ha hb ?_
  rcases le_total 0 (singleRat b - singleRat a) with order | order
  · obtain ⟨low, high⟩ := up order
    exact .inl ⟨by linarith, by linarith⟩
  · obtain ⟨low, high⟩ := down order
    exact .inr ⟨by linarith, by linarith⟩

/-- An interpolated value is between the two values if their difference does not overflow, unless
rounding takes the way to all of it and the sum of `a` and the difference is not. -/
theorem interpolation_between_iff (ha : a.isFinite) (hb : b.isFinite) (ht : t.isFinite)
    (nonneg : 0 ≤ singleRat t) (most : singleRat t ≤ 1) :
    Between a b (a + (b - a) * t) ↔
      (b - a).isFinite ∧ (singleRat t < 1 ∨ Between a b (a + (b - a))) := by
  have whole (difference : (b - a).isFinite) (one : singleRat t = 1) :
      Between a b (a + (b - a) * t) ↔ Between a b (a + (b - a)) := by
    have product := isFinite_mul_of_le_one ht difference nonneg most
    have same : singleRat ((b - a) * t) = singleRat (b - a) := by
      rw [(single_mul_rounds difference ht).singleRat_eq product, one, mul_one,
        nearestIn_singleRat difference]
    have left := single_add_rounds ha product
    have right := single_add_rounds ha difference
    rw [same] at left
    exact ⟨fun h => h.of_rounds ha hb left right, fun h => h.of_rounds ha hb right left⟩
  constructor
  · intro between
    have difference := (isFinite_of_single_mul (isFinite_of_single_add between.1).2).1
    refine ⟨difference, most.lt_or_eq.imp_right fun one => (whole difference one).1 between⟩
  · rintro ⟨difference, less | between⟩
    · exact interpolation_between ha hb ht difference nonneg less
    · rcases most.lt_or_eq with less | one
      · exact interpolation_between ha hb ht difference nonneg less
      · exact (whole difference one).2 between

theorem isFinite_of_single_beq {x : Float32} (same : (x == y) = true) (hy : y.isFinite) :
    x.isFinite :=
  isFinite_of_compare_eq (beq_iff_eq.1 same) hy

/-- No way at all leads to `a`, unless the difference overflows. -/
theorem interpolation_zero_iff (ha : a.isFinite) (ht : t.isFinite) (zero : singleRat t = 0) :
    (a + (b - a) * t == a) = true ↔ (b - a).isFinite := by
  constructor
  · intro same
    have sum := isFinite_of_single_beq same ha
    exact (isFinite_of_single_mul (isFinite_of_single_add sum).2).1
  · intro difference
    have product := isFinite_mul_of_le_one ht difference zero.ge (zero.le.trans zero_le_one)
    have value := (single_mul_rounds difference ht).singleRat_eq product
    rw [zero, mul_zero, nearestIn_zero] at value
    have rounded := single_add_rounds ha product
    rw [value, add_zero] at rounded
    have exact := nearestIn_singleRat ha
    have sum := rounded.isFinite_of_between exact.ge exact.le
    rw [single_beq_iff sum ha, rounded.singleRat_eq sum, exact]

theorem isFinite_sub_self (ha : a.isFinite) : (a - a).isFinite := by
  refine ((single_sub_rounds ha ha).inside ?_).1
  rw [sub_self, nearestIn_zero, abs_zero]
  exact overflowIn_pos _

end Single

end Curves.Number

import Curves.Proofs.Number.Exact
import Curves.Proofs.Number.Nearest

/-!
# Rounding of mantissas

The model of floating-point numbers rounds a mantissa by shifting bits out of it, two of which are
kept. What the mantissa and these two bits say about the exact value is enough to round it to
nearest. The result is canonical, and its value is the one that the exact value is rounded to.
-/

namespace Curves.Number
open Float.Model (Format UnpackedFloat totalExponent)
open Float.Model.UnpackedFloat (Sign Accuracy ExtendedMantissa roundWithAccuracy
  shiftToTargetExponent shiftToExponent)

/-! ## Mantissas with two more bits -/

/-- What a mantissa with its round bit and its sticky bit says about a value. -/
def Describes (em : ExtendedMantissa) (q : ℚ) : Prop :=
  match em.roundBit, em.stickyBit with
  | false, false => q = em.mantissa
  | false, true => em.mantissa < q ∧ q < em.mantissa + 1 / 2
  | true, false => q = em.mantissa + 1 / 2
  | true, true => em.mantissa + 1 / 2 < q ∧ q < em.mantissa + 1

section Describes
variable {em : ExtendedMantissa} {q : ℚ}

theorem Describes.between (h : Describes em q) : em.mantissa ≤ q ∧ q < em.mantissa + 1 := by
  obtain ⟨m, r, s⟩ := em
  cases r <;> cases s <;> simp only [Describes] at h ⊢ <;> constructor <;> linarith

/-- Rounding a described value gives the nearest integer, the even one from halfway. -/
theorem Describes.roundedMantissa (h : Describes em q) :
    (em.roundedMantissa : Int) = roundInt q := by
  have floor : ⌊q⌋ = em.mantissa := by
    rw [Int.floor_eq_iff]
    exact_mod_cast h.between
  obtain ⟨m, r, s⟩ := em
  unfold roundInt
  rw [floor]
  cases r <;> cases s <;> simp only [Describes] at h
  · rw [if_pos (by push_cast; linarith)]
    rfl
  · rw [if_pos (by push_cast; linarith)]
    rfl
  · rw [if_neg (by push_cast; linarith), if_neg (by push_cast; linarith)]
    rfl
  · rw [if_neg (by push_cast; linarith), if_pos (by push_cast; linarith)]
    rfl

theorem Describes.shiftRightOne (h : Describes em q) : Describes em.shiftRightOne (q / 2) := by
  obtain ⟨m, r, s⟩ := em
  have split : (m : ℚ) = 2 * (m / 2 : Nat) + (m % 2 : Nat) := by
    exact_mod_cast (Nat.div_add_mod m 2).symm
  rcases Nat.mod_two_eq_zero_or_one m with parity | parity <;> rw [parity] at split <;>
    cases r <;> cases s <;>
      simp [Describes, ExtendedMantissa.shiftRightOne, parity] at h ⊢ <;> push_cast at split <;>
        first | linarith | constructor <;> linarith

/-- Shifting keeps the description, as the lost bits are remembered. -/
theorem Describes.shiftRight (h : Describes em q) (n : Nat) :
    Describes (em >>> n) (q / 2 ^ n) := by
  change Describes (n.repeat ExtendedMantissa.shiftRightOne em) _
  induction n with
  | zero => simpa [Nat.repeat] using h
  | succ n ih =>
    rw [Nat.repeat, pow_succ, ← div_div]
    exact ih.shiftRightOne

theorem describes_exact (m : Nat) : Describes (.ofMantissaAndAccuracy m .exact) m := rfl

end Describes

/-! ## Mantissas of the right length -/

/-- The finite number `u` is canonical and has the value that `q` is rounded to. -/
structure NearestIn (f : Format) (u : UnpackedFloat) (q : ℚ) : Prop where
  finite : u.isFinite
  canonical : CanonicalIn f u
  value : rat u = nearestIn f q

section Round
variable {f : Format} {s : Sign} {m : Nat} {e : Int} {acc : Accuracy} {q : ℚ}

/-- The exponent that a mantissa is shifted to is the one of the spacing at its value. -/
theorem targetExponent_eq_spacingIn (low : m ≤ q) (high : q < m + 1)
    (bits : e ≤ f.targetExponent (totalExponent m e)) (nonzero : q * 2 ^ e ≠ 0) :
    f.targetExponent (totalExponent m e) = spacingIn f (q * 2 ^ e) := by
  have positive : 0 < q * 2 ^ e := by
    have : 0 ≤ q := m.cast_nonneg.trans low
    positivity
  rw [Format.targetExponent, totalExponent] at *
  by_cases hm : m = 0
  · subst hm
    have := f.hm
    rw [Nat.log2_zero] at *
    have : spacingIn f (q * 2 ^ e) ≤ f.minExponent := by
      rw [spacingIn_le_iff f nonzero, abs_of_pos positive]
      refine ⟨le_rfl, ?_⟩
      rw [mantissaBits_eq] at bits
      calc q * 2 ^ e < 1 * 2 ^ e := by gcongr; simpa using high
        _ ≤ 2 ^ (f.minExponent + f.mantissaBits) := by
          rw [one_mul, mantissaBits_eq]
          gcongr
          exacts [one_le_two, by omega]
    have := least_le_spacingIn f (q * 2 ^ e)
    rw [mantissaBits_eq] at *
    omega
  -- The mantissa is `q` rounded down, so both lie between the same powers of two.
  · have log : Int.log 2 (q * 2 ^ e) = m.log2 + e := by
      refine le_antisymm (Int.lt_add_one_iff.1 ?_) ?_
      · rw [← Int.lt_zpow_iff_log_lt one_lt_two positive, Nat.cast_ofNat, add_right_comm,
          zpow_add₀ two_ne_zero]
        have : m + 1 ≤ 2 ^ (m.log2 + 1) := Nat.lt_log2_self
        have : (m : ℚ) + 1 ≤ 2 ^ (m.log2 + 1) := by exact_mod_cast this
        gcongr
        exact_mod_cast high.trans_le this
      · rw [← Int.zpow_le_iff_le_log one_lt_two positive, Nat.cast_ofNat, zpow_add₀ two_ne_zero]
        have : (2 : ℚ) ^ m.log2 ≤ m := by exact_mod_cast Nat.log2_self_le hm
        gcongr
        exact_mod_cast this.trans low
    rw [spacingIn, abs_of_pos positive, log, mantissaBits_eq]
    omega

/-- A mantissa that a carry has made too long is shortened without loss. -/
theorem shiftToTargetExponent_exact (h : m ≤ 2 ^ f.mantissaBits) (least : f.minExponent ≤ e) :
    shiftToTargetExponent f m e .exact =
      if m < 2 ^ f.mantissaBits then (⟨m, false, false⟩, e)
      else (⟨2 ^ f.mantissaBitsWithoutImplicit, false, false⟩, e + 1) := by
  unfold shiftToTargetExponent shiftToExponent
  rw [Format.targetExponent, totalExponent]
  split_ifs with small
  · have : m.log2 < f.mantissaBits := by
      rcases Nat.eq_zero_or_pos m with rfl | positive
      · rw [Nat.log2_zero, mantissaBits_eq]
        omega
      · exact (Nat.log2_lt positive.ne').2 small
    have stay : (max (m.log2 + 1 + e - f.mantissaBits) f.minExponent - e).toNat = 0 := by omega
    simp only [stay]
    simp [HShiftRight.hShiftRight, Nat.repeat, ExtendedMantissa.ofMantissaAndAccuracy]
  · obtain rfl : m = 2 ^ f.mantissaBits := by omega
    have once : (max (((2 ^ f.mantissaBits : Nat).log2 : Int) + 1 + e - f.mantissaBits)
        f.minExponent - e).toNat = 1 := by
      rw [Nat.log2_two_pow]
      omega
    have half : 2 ^ f.mantissaBits / 2 = 2 ^ f.mantissaBitsWithoutImplicit := by
      rw [mantissaBits_eq, pow_add, pow_one, Nat.mul_div_cancel_left _ two_pos]
    have even : 2 ^ f.mantissaBits % 2 = 0 := by
      rw [mantissaBits_eq, pow_add, pow_one, Nat.mul_mod_right]
    simp only [once]
    simp [HShiftRight.hShiftRight, Nat.repeat, ExtendedMantissa.ofMantissaAndAccuracy,
      ExtendedMantissa.shiftRightOne, half, even]

theorem mantissa_ofMantissaAndAccuracy (m : Nat) (acc : Accuracy) :
    (ExtendedMantissa.ofMantissaAndAccuracy m acc).mantissa = m := by
  rcases acc with _ | _ | _ | _ <;> rfl

/-- The rounded mantissa is the multiple of the spacing that the value is rounded to. -/
theorem nearestIn_eq_scaled {r : Nat} {t : Int} (low : m ≤ q) (high : q < m + 1)
    (bits : e ≤ f.targetExponent (totalExponent m e))
    (ht : f.targetExponent (totalExponent m e) = t)
    (hr : (r : Int) = roundInt (q * 2 ^ e / 2 ^ t)) :
    nearestIn f (q * 2 ^ e) = r * 2 ^ t ∧ r ≤ 2 ^ f.mantissaBits ∧
      (2 ^ f.mantissaBitsWithoutImplicit ≤ r ∨ t = f.minExponent) := by
  by_cases zero : q * 2 ^ e = 0
  · have : q = 0 := (mul_eq_zero.1 zero).resolve_right (by positivity)
    obtain rfl : m = 0 := by exact_mod_cast (this ▸ low).antisymm m.cast_nonneg
    rw [zero, zero_div, show roundInt 0 = 0 from roundInt_intCast 0] at hr
    obtain rfl : r = 0 := by exact_mod_cast hr
    have := f.hm
    rw [Format.targetExponent, totalExponent, Nat.log2_zero, mantissaBits_eq] at bits ht
    refine ⟨by simp [zero, nearestIn_zero], by positivity, .inr (by omega)⟩
  · have same := (targetExponent_eq_spacingIn low high bits zero).symm.trans ht
    have positive : 0 ≤ q * 2 ^ e := by
      have : 0 ≤ q := m.cast_nonneg.trans low
      positivity
    have unit : (0 : ℚ) < 2 ^ t := by positivity
    refine ⟨by rw [nearestIn, same, ← hr, Int.cast_natCast], ?_, ?_⟩
    · have above := ((spacingIn_le_iff f zero).1 same.le).2
      rw [abs_of_nonneg positive, add_comm, zpow_add₀ two_ne_zero, ← div_lt_iff₀ unit,
        zpow_natCast] at above
      have := roundInt_mono (q := (2 ^ f.mantissaBits : Int)) (by exact_mod_cast above.le)
      rw [← hr, roundInt_intCast] at this
      exact_mod_cast this
    · by_cases least : t = f.minExponent
      · exact .inr least
      · have := least_le_spacingIn f (q * 2 ^ e)
        have below := zpow_le_of_lt_spacingIn f zero (by omega)
        rw [abs_of_nonneg positive, same, add_comm, zpow_add₀ two_ne_zero,
          ← le_div_iff₀ unit, zpow_natCast] at below
        have := roundInt_mono (p := (2 ^ f.mantissaBitsWithoutImplicit : Int))
          (by exact_mod_cast below)
        rw [← hr, roundInt_intCast] at this
        exact .inl (by exact_mod_cast this)

theorem nearestIn_signFactor (f : Format) (s : Sign) (q : ℚ) :
    nearestIn f (signFactor s * q) = signFactor s * nearestIn f q := by
  cases s <;> simp [signFactor, nearestIn_neg]

/-- Rounding a described value gives the canonical form of the value that it is rounded to. -/
theorem roundWithAccuracy_nearestIn (s : Sign)
    (h : Describes (.ofMantissaAndAccuracy m acc) q)
    (bits : e ≤ f.targetExponent (totalExponent m e)) :
    NearestIn f (roundWithAccuracy f s m e acc) (signFactor s * (q * 2 ^ e)) := by
  have between := h.between
  rw [mantissa_ofMantissaAndAccuracy] at between
  generalize ht : f.targetExponent (totalExponent m e) = t at bits
  obtain ⟨k, hk⟩ := Int.eq_ofNat_of_zero_le (Int.sub_nonneg_of_le bits)
  have shifted := h.shiftRight k
  have scaled : q / 2 ^ k = q * 2 ^ e / 2 ^ t := by
    have : (2 : ℚ) ^ t = 2 ^ e * 2 ^ k := by
      rw [show t = e + k by omega, zpow_add₀ two_ne_zero, zpow_natCast]
    rw [this]
    field_simp
  generalize hr : (ExtendedMantissa.ofMantissaAndAccuracy m acc >>> k).roundedMantissa = r
  have rounded := shifted.roundedMantissa
  rw [hr, scaled] at rounded
  obtain ⟨value, most, full⟩ := nearestIn_eq_scaled between.1 between.2 (ht ▸ bits) ht rounded
  have least : f.minExponent ≤ t := by rw [← ht, Format.targetExponent]; exact le_max_right ..
  have first : shiftToTargetExponent f m e acc =
      (ExtendedMantissa.ofMantissaAndAccuracy m acc >>> k, t) := by
    have same : e + k = t := by omega
    simp only [shiftToTargetExponent, shiftToExponent, ht, hk, Int.toNat_natCast, same]
  have length : 2 ^ f.mantissaBits = 2 * 2 ^ f.mantissaBitsWithoutImplicit := by
    rw [mantissaBits_eq, pow_add, pow_one]
  unfold roundWithAccuracy
  simp only [first, hr, shiftToTargetExponent_exact most least]
  by_cases small : r < 2 ^ f.mantissaBits
  · simp only [if_pos small]
    split_ifs with zero
    · refine ⟨rfl, trivial, ?_⟩
      simp [rat, nearestIn_signFactor, value, zero]
    · refine ⟨rfl, ⟨small, least, full⟩, ?_⟩
      rw [rat, nearestIn_signFactor, value]
  -- Rounding up has carried into the next power of two.
  · obtain rfl : r = 2 ^ f.mantissaBits := by omega
    have positive : 2 ^ f.mantissaBitsWithoutImplicit ≠ 0 := by positivity
    simp only [if_neg small, dif_neg positive]
    refine ⟨rfl, ⟨by omega, by omega, .inl le_rfl⟩, ?_⟩
    rw [nearestIn_signFactor, value, rat, zpow_add_one₀ two_ne_zero, length]
    push_cast
    ring

theorem log2_shiftLeft (hm : m ≠ 0) (k : Nat) : (m <<< k).log2 = m.log2 + k := by
  have low := Nat.log2_self_le hm
  have high := Nat.lt_log2_self (n := m)
  rw [Nat.shiftLeft_eq, Nat.log2_eq_iff (by positivity), Nat.pow_add, Nat.add_right_comm,
    Nat.pow_add]
  exact ⟨Nat.mul_le_mul_right _ low, Nat.mul_lt_mul_of_pos_right high (by positivity)⟩

theorem scaled_shiftLeft (m k : Nat) (e : Int) :
    ((m <<< k : Nat) : ℚ) * 2 ^ (e - k) = m * 2 ^ e := by
  rw [Nat.shiftLeft_eq, zpow_sub₀ two_ne_zero, zpow_natCast]
  push_cast
  field_simp

/-- A mantissa that is too short is made longer without loss. -/
theorem round_nearestIn (f : Format) (s : Sign) (hm : 0 < m) (e : Int) :
    NearestIn f (UnpackedFloat.round f s m e) (signFactor s * (m * 2 ^ e)) := by
  unfold UnpackedFloat.round UnpackedFloat.decreaseExponent
  generalize ht : f.targetExponent (totalExponent m e) = t
  dsimp only
  generalize hk : (e - t).toNat = k
  have total : totalExponent (m <<< k) (e - k) = totalExponent m e := by
    rw [totalExponent, totalExponent, log2_shiftLeft hm.ne']
    push_cast
    ring
  rw [← scaled_shiftLeft m k e]
  exact roundWithAccuracy_nearestIn s (describes_exact _) (by rw [total, ht]; omega)

end Round

/-! ## Doubles -/

/-- The finite number `u` is canonical and has the value that `q` is rounded to. -/
structure IsNearest (u : UnpackedFloat) (q : ℚ) : Prop where
  finite : u.isFinite
  canonical : IsCanonical u
  value : rat u = nearest q

theorem NearestIn.isNearest {u : UnpackedFloat} {q : ℚ} (h : NearestIn .binary64 u q) :
    IsNearest u q :=
  ⟨h.finite, (isCanonical_iff u).2 h.canonical, h.value⟩

theorem targetExponent_eq (t : Int) :
    Format.binary64.targetExponent t = max (t - 53) (-1074) := rfl

theorem nearest_signFactor (s : Sign) (q : ℚ) :
    nearest (signFactor s * q) = signFactor s * nearest q :=
  nearestIn_signFactor .binary64 s q

/-- Rounding a mantissa with an exponent gives the nearest double. -/
theorem round_isNearest (s : Sign) {m : Nat} (hm : 0 < m) (e : Int) :
    IsNearest (UnpackedFloat.round Format.binary64 s m e) (signFactor s * (m * 2 ^ e)) :=
  (round_nearestIn .binary64 s hm e).isNearest

end Curves.Number

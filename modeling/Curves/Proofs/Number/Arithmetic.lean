import Curves.Proofs.Number.Rounding

/-!
# Arithmetic

Sums, differences, products and quotients of finite numbers of a format are the exact results
rounded to nearest. A result that is rounded to more than the greatest number is infinite.
-/

namespace Curves.Number
open Float.Model (Format UnpackedFloat totalExponent)
open Float.Model.UnpackedFloat (Sign ExtendedMantissa roundWithAccuracy)

/-! ## Unpacked numbers -/

/-- A mantissa with an exponent is brought to the nearest number of the format. -/
theorem normalize_nearestIn (f : Format) (m e : Int) (zeroSign : Sign) :
    NearestIn f (UnpackedFloat.normalize f m e zeroSign) (m * 2 ^ e) := by
  unfold UnpackedFloat.normalize
  split
  · rename_i negative
    have magnitude : (((-m).toNat : Int) : ℚ) = -m := by
      rw [Int.toNat_of_nonneg (by have := Int.compare_eq_lt.1 negative; omega), Int.cast_neg]
    have := round_nearestIn f .negative (m := (-m).toNat)
      (by have := Int.compare_eq_lt.1 negative; omega) e
    rwa [← Int.cast_natCast, magnitude, signFactor, neg_one_mul, neg_mul, neg_neg] at this
  · rename_i zero
    obtain rfl := Int.compare_eq_eq.1 zero
    exact ⟨rfl, trivial, by simp [rat, nearestIn_zero]⟩
  · rename_i positive
    have magnitude : ((m.toNat : Int) : ℚ) = m := by
      rw [Int.toNat_of_nonneg (by have := Int.compare_eq_gt.1 positive; omega)]
    have := round_nearestIn f .positive (m := m.toNat)
      (by have := Int.compare_eq_gt.1 positive; omega) e
    rwa [← Int.cast_natCast, magnitude, signFactor, one_mul] at this

section Arithmetic
variable {f : Format} {u v : UnpackedFloat}

/-- A canonical number is rounded to itself. -/
theorem nearestIn_self (hu : CanonicalIn f u) (fu : u.isFinite) : NearestIn f u (rat u) := by
  refine ⟨fu, hu, ?_⟩
  rcases u with _ | _ | s | ⟨s, m, e, h⟩
  · cases fu
  · cases fu
  · exact (nearestIn_zero f).symm
  · have := nearestIn_scaled f (n := m) (e := e) (by exact_mod_cast hu.1) hu.2.1
    rw [rat, nearestIn_signFactor]
    exact congrArg _ this.symm

theorem apply_scaled (s : Sign) (m : Nat) {e t : Int} (h : t ≤ e) :
    ((s.apply (m <<< (e - t).toNat : Nat) : Int) : ℚ) * 2 ^ t = signFactor s * (m * 2 ^ e) := by
  have := scaled_shiftLeft m (e - t).toNat e
  rw [show e - ((e - t).toNat : Int) = t by omega] at this
  rw [← this]
  generalize m <<< (e - t).toNat = n
  cases s <;> simp [signFactor, Sign.apply]

/-- The sum is the nearest number of the format to the exact sum. -/
theorem add_nearestIn (hu : CanonicalIn f u) (hv : CanonicalIn f v) (fu : u.isFinite)
    (fv : v.isFinite) : NearestIn f (u.add f v) (rat u + rat v) := by
  rcases u with _ | _ | s | ⟨s₁, m₁, e₁, h₁⟩
  · cases fu
  · cases fu
  · rcases v with _ | _ | t | ⟨s₂, m₂, e₂, h₂⟩
    · cases fv
    · cases fv
    · have zero : rat (.zero s) + rat (.zero t) = 0 := add_zero 0
      rw [zero]
      cases s <;> cases t <;> exact nearestIn_self (u := .zero _) trivial rfl
    · rw [show rat (.zero s) = 0 from rfl, zero_add]
      exact nearestIn_self hv fv
  · rcases v with _ | _ | t | ⟨s₂, m₂, e₂, h₂⟩
    · cases fv
    · cases fv
    · rw [show rat (.zero t) = 0 from rfl, add_zero]
      exact nearestIn_self hu fu
    · have := normalize_nearestIn f
        (s₁.apply (m₁ <<< (e₁ - min e₁ e₂).toNat : Nat) +
          s₂.apply (m₂ <<< (e₂ - min e₁ e₂).toNat : Nat)) (min e₁ e₂) .positive
      rwa [Int.cast_add, add_mul, apply_scaled s₁ m₁ (min_le_left ..),
        apply_scaled s₂ m₂ (min_le_right ..)] at this

theorem sub_eq_add_opposite (f : Format) (u v : UnpackedFloat) : u.sub f v = u.add f v.neg := by
  rcases u with (_ | _) | _ | (_ | _) | ⟨s₁, m₁, e₁, h₁⟩
  all_goals rcases v with (_ | _) | _ | (_ | _) | ⟨s₂, m₂, e₂, h₂⟩
  any_goals rfl
  -- Only the sum of two numbers that are not zero is computed.
  simp only [UnpackedFloat.sub, UnpackedFloat.add, UnpackedFloat.neg]
  generalize (UnpackedFloat.decreaseExponent m₂ e₂ (min e₁ e₂)).1 = n
  cases s₂ <;> simp [Sign.apply, sub_eq_add_neg]

/-- The difference is the nearest number of the format to the exact difference. -/
theorem sub_nearestIn (hu : CanonicalIn f u) (hv : CanonicalIn f v) (fu : u.isFinite)
    (fv : v.isFinite) : NearestIn f (u.sub f v) (rat u - rat v) := by
  have opposite : rat v.neg = -rat v := by
    rcases v with _ | _ | _ | ⟨_ | _, _, _, _⟩
    any_goals exact neg_zero.symm
    · exact (one_mul _).trans (by rw [rat, signFactor, neg_one_mul, neg_neg])
    · exact (neg_one_mul _).trans (by rw [rat, signFactor, one_mul])
  have canonical : CanonicalIn f v.neg := by
    cases v <;> exact hv
  have finite : v.neg.isFinite := by
    cases v <;> exact fv
  rw [sub_eq_add_opposite, sub_eq_add_neg, ← opposite]
  exact add_nearestIn hu canonical fu finite

theorem signFactor_mul (s t : Sign) : signFactor (s * t) = signFactor s * signFactor t := by
  cases s <;> cases t <;> norm_num [signFactor]

theorem signFactor_div (s t : Sign) : signFactor (s / t) = signFactor s / signFactor t := by
  cases s <;> cases t <;> norm_num [signFactor] <;> rfl

theorem mul_scaled_nearestIn {s₁ s₂ : Sign} {m₁ m₂ : Nat} {e₁ e₂ : Int} (h₁ : 0 < m₁)
    (h₂ : 0 < m₂)
    (bits : e₁ + e₂ ≤ f.targetExponent (totalExponent (m₁ * m₂) (e₁ + e₂))) :
    NearestIn f (UnpackedFloat.mul f (.finite s₁ m₁ e₁ h₁) (.finite s₂ m₂ e₂ h₂))
      (rat (.finite s₁ m₁ e₁ h₁) * rat (.finite s₂ m₂ e₂ h₂)) := by
  have := roundWithAccuracy_nearestIn (s₁ * s₂) (describes_exact _) bits
  have value : rat (.finite s₁ m₁ e₁ h₁) * rat (.finite s₂ m₂ e₂ h₂) =
      signFactor (s₁ * s₂) * ((m₁ * m₂ : Nat) * 2 ^ (e₁ + e₂)) := by
    rw [rat, rat, signFactor_mul, zpow_add₀ two_ne_zero]
    push_cast
    ring
  rwa [value]

/-- The product is the nearest number of the format to the exact product. -/
theorem mul_nearestIn (hu : CanonicalIn f u) (hv : CanonicalIn f v) (fu : u.isFinite)
    (fv : v.isFinite) : NearestIn f (u.mul f v) (rat u * rat v) := by
  rcases u with _ | _ | s | ⟨s₁, m₁, e₁, h₁⟩
  · cases fu
  · cases fu
  · rw [show rat (.zero s) = 0 from rfl, zero_mul]
    rcases v with _ | _ | t | ⟨s₂, m₂, e₂, h₂⟩
    · cases fv
    · cases fv
    all_goals exact nearestIn_self (u := .zero _) trivial rfl
  · rcases v with _ | _ | t | ⟨s₂, m₂, e₂, h₂⟩
    · cases fv
    · cases fv
    · rw [show rat (.zero t) = 0 from rfl, mul_zero]
      exact nearestIn_self (u := .zero _) trivial rfl
    · refine mul_scaled_nearestIn h₁ h₂ ?_
      obtain ⟨-, least₁, full₁⟩ := hu
      obtain ⟨-, least₂, full₂⟩ := hv
      have length := mantissaBits_eq f
      rw [Format.targetExponent, totalExponent]
      by_cases long : 2 ^ f.mantissaBitsWithoutImplicit ≤ m₁ * m₂
      · have := (Nat.le_log2 (Nat.mul_pos h₁ h₂).ne').2 long
        omega
      · -- both factors are below the least normal double
        have := Nat.le_mul_of_pos_right m₁ h₂
        have := Nat.le_mul_of_pos_left m₂ h₁
        have := minExponent_eq f
        have := f.hm
        omega

theorem describes_quotient (n : Nat) {d : Nat} (hd : 0 < d) :
    Describes (.ofMantissaAndAccuracy (n / d) (UnpackedFloat.accuracyOfFraction (n % d) d))
      (n / d) := by
  have positive : (0 : ℚ) < d := by exact_mod_cast hd
  have split : (n : ℚ) / d = (n / d : Nat) + (n % d : Nat) / d := by
    have : (n : ℚ) = d * (n / d : Nat) + (n % d : Nat) := by
      exact_mod_cast (Nat.div_add_mod n d).symm
    field_simp
    linarith
  have proper : ((n % d : Nat) : ℚ) / d < 1 := by
    rw [div_lt_one positive]
    exact_mod_cast Nat.mod_lt n hd
  rw [split, UnpackedFloat.accuracyOfFraction]
  generalize n % d = r at *
  split_ifs with zero
  · simp [zero, Describes, ExtendedMantissa.ofMantissaAndAccuracy]
  · have part : 0 < (r : ℚ) / d := by
      have : 0 < r := by omega
      positivity
    -- The round bit says on which side of a half the remainder is.
    cases h : compare (2 * r) d with
    | lt =>
      have : (2 * r : ℚ) < d := by exact_mod_cast Nat.compare_eq_lt.1 h
      have : (r : ℚ) / d < 1 / 2 := by
        rw [div_lt_div_iff₀ positive two_pos]
        linarith
      constructor <;> rw [mantissa_ofMantissaAndAccuracy] <;> linarith
    | eq =>
      have : (2 * r : ℚ) = d := by exact_mod_cast Nat.compare_eq_eq.1 h
      have : (r : ℚ) / d = 1 / 2 := by
        rw [div_eq_div_iff positive.ne' two_ne_zero]
        linarith
      exact congrArg _ this
    | gt =>
      have : (d : ℚ) < 2 * r := by exact_mod_cast Nat.compare_eq_gt.1 h
      have : 1 / 2 < (r : ℚ) / d := by
        rw [div_lt_div_iff₀ two_pos positive]
        linarith
      constructor <;> rw [mantissa_ofMantissaAndAccuracy] <;> linarith

/-- The quotient of mantissas that are first made long enough. -/
theorem div_scaled_nearestIn {s₁ s₂ : Sign} {m₁ m₂ : Nat} {e₁ e₂ : Int} (h₁ : 0 < m₁)
    (h₂ : 0 < m₂) :
    NearestIn f (UnpackedFloat.div f (.finite s₁ m₁ e₁ h₁) (.finite s₂ m₂ e₂ h₂))
      (rat (.finite s₁ m₁ e₁ h₁) / rat (.finite s₂ m₂ e₂ h₂)) := by
  have length := mantissaBits_eq f
  simp only [UnpackedFloat.div, UnpackedFloat.divCore, Format.targetExponent, totalExponent]
  generalize ht : min (e₁ - e₂) (max _ _) = t
  generalize hk : (e₁ - e₂ - t).toNat = k
  have long : t ≤ f.targetExponent (totalExponent (m₁ <<< k / m₂) t) := by
    rw [Format.targetExponent, totalExponent]
    by_cases least : t ≤ f.minExponent
    · omega
    · generalize hn : f.mantissaBitsWithoutImplicit = n at length
      have shift : m₂.log2 + 1 + n ≤ m₁.log2 + k := by omega
      have enough : 2 ^ n ≤ m₁ <<< k / m₂ := by
        rw [Nat.le_div_iff_mul_le h₂, Nat.shiftLeft_eq]
        calc 2 ^ n * m₂ ≤ 2 ^ n * 2 ^ (m₂.log2 + 1) := by
              gcongr
              exact Nat.lt_log2_self.le
          _ = 2 ^ (m₂.log2 + 1 + n) := by rw [← Nat.pow_add, Nat.add_comm]
          _ ≤ 2 ^ (m₁.log2 + k) := Nat.pow_le_pow_right two_pos shift
          _ ≤ m₁ * 2 ^ k := by
              rw [Nat.pow_add]
              gcongr
              exact Nat.log2_self_le h₁.ne'
      have := (Nat.le_log2 (by have := Nat.two_pow_pos n; omega)).2 enough
      omega
  have := roundWithAccuracy_nearestIn (s₁ / s₂) (describes_quotient (m₁ <<< k) h₂) long
  have value : rat (.finite s₁ m₁ e₁ h₁) / rat (.finite s₂ m₂ e₂ h₂) =
      signFactor (s₁ / s₂) * ((m₁ <<< k : Nat) / m₂ * 2 ^ t) := by
    have scaled := scaled_shiftLeft m₁ k (t + k)
    rw [add_sub_cancel_right, show t + k = e₁ - e₂ by omega, zpow_sub₀ two_ne_zero] at scaled
    rw [div_mul_eq_mul_div ((m₁ <<< k : Nat) : ℚ), scaled, rat, rat, signFactor_div]
    field_simp
  rwa [value]

/-- The quotient is the nearest number of the format to the exact quotient. -/
theorem div_nearestIn (fu : u.isFinite) (fv : v.isFinite) (nonzero : rat v ≠ 0) :
    NearestIn f (u.div f v) (rat u / rat v) := by
  rcases v with _ | _ | t | ⟨s₂, m₂, e₂, h₂⟩
  · cases fv
  · cases fv
  · exact absurd rfl nonzero
  · rcases u with _ | _ | s | ⟨s₁, m₁, e₁, h₁⟩
    · cases fu
    · cases fu
    · rw [show rat (.zero s) = 0 from rfl, zero_div]
      exact nearestIn_self (u := .zero _) trivial rfl
    · exact div_scaled_nearestIn h₁ h₂

/-! ### Operands of finite results -/

theorem finite_of_add (h : (u.add f v).isFinite) : u.isFinite ∧ v.isFinite := by
  rcases u with (_ | _) | _ | _ | _ <;> rcases v with (_ | _) | _ | _ | _ <;>
    first
    | exact ⟨rfl, rfl⟩
    | exact absurd h Bool.false_ne_true

theorem finite_of_sub (h : (u.sub f v).isFinite) : u.isFinite ∧ v.isFinite := by
  rcases u with (_ | _) | _ | _ | _ <;> rcases v with (_ | _) | _ | _ | _ <;>
    first
    | exact ⟨rfl, rfl⟩
    | exact absurd h Bool.false_ne_true

theorem finite_of_mul (h : (u.mul f v).isFinite) : u.isFinite ∧ v.isFinite := by
  rcases u with _ | _ | _ | _ <;> rcases v with _ | _ | _ | _ <;>
    first
    | exact ⟨rfl, rfl⟩
    | exact absurd h Bool.false_ne_true

theorem abs_rat (s : Sign) {m : Nat} (h : 0 < m) (e : Int) :
    |rat (.finite s m e h)| = m * 2 ^ e := by
  have := scaled_pos h e
  cases s <;> simp [rat, signFactor]

/-! ### Overflow -/

/-- The least value that is too large for a format. -/
@[irreducible] def overflowIn (f : Format) : ℚ := 2 ^ f.mantissaBits * 2 ^ greatestExponent f

theorem overflowIn_pos (f : Format) : 0 < overflowIn f := by
  unfold overflowIn
  positivity

/-- The unpacked number `u` is what `q` is rounded to. -/
structure RoundsIn (f : Format) (u : UnpackedFloat) (q : ℚ) : Prop where
  inside : |nearestIn f q| < overflowIn f → u.isFinite ∧ rat u = nearestIn f q
  above : overflowIn f ≤ nearestIn f q → u = .infinity .positive
  below : nearestIn f q ≤ -overflowIn f → u = .infinity .negative

theorem scaled_lt_overflowIn_iff (wide : 0 < f.exponentBias) {m : Nat} {e : Int}
    (small : m < 2 ^ f.mantissaBits)
    (full : 2 ^ f.mantissaBitsWithoutImplicit ≤ m ∨ e = f.minExponent) :
    (m : ℚ) * 2 ^ e < overflowIn f ↔ ¬ greatestExponent f < e := by
  have bottom := minExponent_eq f
  have top : greatestExponent f = f.exponentBias - f.mantissaBitsWithoutImplicit := rfl
  unfold overflowIn
  constructor
  · intro less large
    have : (2 : ℚ) ^ f.mantissaBitsWithoutImplicit ≤ m := by
      exact_mod_cast full.resolve_right (by omega)
    refine less.not_ge ?_
    calc (2 : ℚ) ^ f.mantissaBits * 2 ^ greatestExponent f
        = 2 ^ f.mantissaBitsWithoutImplicit * 2 ^ (greatestExponent f + 1) := by
          rw [zpow_add_one₀ two_ne_zero, mantissaBits_eq, pow_add]
          ring
      _ ≤ m * 2 ^ e := by gcongr; exacts [one_le_two, large]
  · intro large
    have : (m : ℚ) < 2 ^ f.mantissaBits := by exact_mod_cast small
    calc (m : ℚ) * 2 ^ e < 2 ^ f.mantissaBits * 2 ^ e := by gcongr
      _ ≤ 2 ^ f.mantissaBits * 2 ^ greatestExponent f := by
        gcongr
        exacts [one_le_two, not_lt.1 large]

/-- Finite numbers of a format are below its overflow. -/
theorem abs_rat_lt (wide : 0 < f.exponentBias) (canonical : CanonicalIn f u)
    (fits : boundedIn f u = u) : |rat u| < overflowIn f := by
  have positive := overflowIn_pos f
  rcases u with _ | _ | s | ⟨s, m, e, hm⟩
  · exact abs_zero.trans_lt positive
  · exact abs_zero.trans_lt positive
  · exact abs_zero.trans_lt positive
  · rw [abs_rat, scaled_lt_overflowIn_iff wide canonical.1 canonical.2.2]
    intro large
    rw [boundedIn, if_pos large] at fits
    cases fits

theorem NearestIn.roundsIn (wide : 0 < f.exponentBias) {q : ℚ} (h : NearestIn f u q) :
    RoundsIn f (boundedIn f u) q := by
  obtain ⟨finite, canonical, value⟩ := h
  have positive := overflowIn_pos f
  rcases u with _ | _ | s | ⟨s, m, e, hm⟩
  · cases finite
  · cases finite
  · have zero : nearestIn f q = 0 := value.symm
    refine ⟨fun _ => ⟨rfl, value⟩, fun above => ?_, fun below => ?_⟩
    · linarith
    · linarith
  · have fits := scaled_lt_overflowIn_iff wide canonical.1 canonical.2.2
    have size := abs_rat s hm e
    have scaled := scaled_pos hm e
    rw [value] at size
    rw [boundedIn]
    -- A canonical number reaches the bound exactly where its exponent is too large to be packed.
    split_ifs with large
    · have most := not_lt.1 (mt fits.1 (not_not.2 large))
      rw [← size] at most
      refine ⟨fun inside => absurd inside most.not_gt, fun above => ?_, fun below => ?_⟩
      · cases s with
        | positive => rfl
        | negative =>
          rw [← value, rat, signFactor] at above
          linarith
      · cases s with
        | negative => rfl
        | positive =>
          rw [← value, rat, signFactor] at below
          linarith
    · have inside := fits.2 large
      rw [← size] at inside
      have bounds := abs_lt.1 inside
      refine ⟨fun _ => ⟨rfl, value⟩, fun above => ?_, fun below => ?_⟩
      · linarith
      · linarith

/-- A finite rounded number has the nearest value. -/
theorem RoundsIn.rat_eq {q : ℚ} (h : RoundsIn f u q) (hu : u.isFinite) : rat u = nearestIn f q := by
  refine (h.inside (abs_lt.2 ⟨?_, ?_⟩)).2
  · by_contra! below
    rw [h.below below] at hu
    cases hu
  · by_contra! above
    rw [h.above above] at hu
    cases hu

theorem boundedIn_eq_self (hu : u.isFinite = false) : CanonicalIn f u ∧ boundedIn f u = u := by
  cases u with
  | finite => cases hu
  | _ => exact ⟨trivial, rfl⟩

end Arithmetic

/-! ## Doubles -/

@[irreducible] def overflow : ℚ := 2 ^ 1024

theorem overflow_eq : overflow = 2 ^ 53 * 2 ^ (971 : Int) := by
  rw [overflow, ← zpow_natCast, ← zpow_natCast, ← zpow_add₀ two_ne_zero]
  rfl

theorem overflow_pos : 0 < overflow := by
  rw [overflow_eq]
  positivity

theorem zpow_lt_overflow {e : Int} (h : e < 1024) : 2 ^ e < overflow := by
  rw [overflow, ← zpow_natCast]
  exact zpow_lt_zpow_right₀ one_lt_two h

/-- `x` is the double that `q` is rounded to. -/
structure RoundsTo (x : Float) (q : ℚ) : Prop where
  inside : |nearest q| < overflow → x.isFinite ∧ toRat x = nearest q
  above : overflow ≤ nearest q → x.toModel.unpack = .infinity .positive
  below : nearest q ≤ -overflow → x.toModel.unpack = .infinity .negative

theorem overflow_eq_overflowIn : overflow = overflowIn .binary64 := by
  rw [overflow_eq]
  unfold overflowIn
  rfl

theorem RoundsIn.roundsTo {x : Float} {q : ℚ} (h : RoundsIn .binary64 x.toModel.unpack q) :
    RoundsTo x q := by
  obtain ⟨inside, above, below⟩ := h
  rw [← overflow_eq_overflowIn] at inside above below
  exact ⟨inside, above, below⟩

theorem IsNearest.roundsTo {u : UnpackedFloat} {q : ℚ} (h : IsNearest u q) :
    RoundsTo (.ofModel (.pack u)) q := by
  have unpacked : (Float.ofModel (.pack u)).toModel.unpack = boundedIn .binary64 u :=
    (unpack_pack h.canonical).trans (bounded_eq u)
  apply RoundsIn.roundsTo
  rw [unpacked]
  exact NearestIn.roundsIn (by decide) ⟨h.finite, (isCanonical_iff u).1 h.canonical, h.value⟩

theorem isNearest_self {u : UnpackedFloat} (hu : IsCanonical u) (fu : u.isFinite) :
    IsNearest u (rat u) :=
  (nearestIn_self ((isCanonical_iff u).1 hu) fu).isNearest

theorem mul_scaled_isNearest {s₁ s₂ : Sign} {m₁ m₂ : Nat} {e₁ e₂ : Int} (h₁ : 0 < m₁)
    (h₂ : 0 < m₂)
    (bits : e₁ + e₂ ≤ Format.binary64.targetExponent (totalExponent (m₁ * m₂) (e₁ + e₂))) :
    IsNearest (UnpackedFloat.mul Format.binary64 (.finite s₁ m₁ e₁ h₁) (.finite s₂ m₂ e₂ h₂))
      (rat (.finite s₁ m₁ e₁ h₁) * rat (.finite s₂ m₂ e₂ h₂)) :=
  (mul_scaled_nearestIn h₁ h₂ bits).isNearest

theorem div_scaled_isNearest {s₁ s₂ : Sign} {m₁ m₂ : Nat} {e₁ e₂ : Int} (h₁ : 0 < m₁)
    (h₂ : 0 < m₂) :
    IsNearest (UnpackedFloat.div Format.binary64 (.finite s₁ m₁ e₁ h₁) (.finite s₂ m₂ e₂ h₂))
      (rat (.finite s₁ m₁ e₁ h₁) / rat (.finite s₂ m₂ e₂ h₂)) :=
  (div_scaled_nearestIn h₁ h₂).isNearest

theorem finite_of_pack {u : UnpackedFloat} (h : (Float.ofModel (.pack u)).isFinite) :
    u.isFinite := by
  by_contra hu
  obtain ⟨canonical, fits⟩ := boundedIn_eq_self (f := .binary64) (Bool.eq_false_iff.2 hu)
  have packed := unpack_pack ((isCanonical_iff u).2 canonical)
  rw [bounded_eq, fits] at packed
  exact hu ((congrArg UnpackedFloat.isFinite packed).symm.trans h)

section Float
variable {x y : Float} {q : ℚ}

theorem isFinite_of_infinity {s : Sign} (hx : x.toModel.unpack = .infinity s) :
    x.isFinite = false :=
  congrArg UnpackedFloat.isFinite hx

/-- A finite rounded double has the nearest value. -/
theorem RoundsTo.toRat_eq (h : RoundsTo x q) (hx : x.isFinite) : toRat x = nearest q := by
  refine (h.inside (abs_lt.2 ⟨?_, ?_⟩)).2
  · by_contra! below
    exact Bool.eq_false_iff.1 (isFinite_of_infinity (h.below below)) hx
  · by_contra! above
    exact Bool.eq_false_iff.1 (isFinite_of_infinity (h.above above)) hx

/-- Finite doubles are below the overflow. -/
theorem abs_toRat_lt (x : Float) : |toRat x| < overflow := by
  obtain ⟨canonical, fits⟩ := canonicalIn_unpack (f := .binary64) (by decide)
    x.toModel.toBits.toBitVec
  rw [overflow_eq_overflowIn]
  exact abs_rat_lt (by decide) canonical fits

/-- What is rounded between two finite doubles stays between them. -/
theorem RoundsTo.isFinite_of_between {z : Float} (h : RoundsTo z q) (low : toRat x ≤ nearest q)
    (high : nearest q ≤ toRat y) : z.isFinite := by
  have := abs_lt.1 (abs_toRat_lt x)
  have := abs_lt.1 (abs_toRat_lt y)
  exact (h.inside (abs_lt.2 ⟨by linarith, by linarith⟩)).1

def infinityOrder : Sign → Ordering
  | .negative => .lt
  | .positive => .gt

theorem compare_infinity (s : Sign) {v : UnpackedFloat} (fv : v.isFinite) :
    UnpackedFloat.compare (.infinity s) v = some (infinityOrder s) := by
  cases v with
  | notANumber => cases fv
  | infinity => cases fv
  | _ => cases s <;> rfl

/-- Only finite numbers are equal to finite ones. -/
theorem isFinite_of_compare_eq {u v : UnpackedFloat} (same : u.compare v = some .eq)
    (fv : v.isFinite) : u.isFinite := by
  cases u with
  | notANumber =>
    rw [(compare_eq_none_iff .notANumber v).2 (.inl rfl)] at same
    cases same
  | infinity s =>
    rw [compare_infinity s fv] at same
    cases s <;> cases same
  | _ => rfl

/-- The order of a rounded value, which may be infinite, and a finite double. -/
theorem RoundsTo.le_iff (h : RoundsTo x q) (hy : y.isFinite) : x ≤ y ↔ nearest q ≤ toRat y := by
  have bounds := abs_lt.1 (abs_toRat_lt y)
  by_cases inside : |nearest q| < overflow
  · obtain ⟨hx, value⟩ := h.inside inside
    rw [le_iff_toRat hx hy, value]
  rcases le_abs.1 (not_lt.1 inside) with above | below
  · rw [le_iff_compare, h.above above, compare_infinity _ hy]
    exact iff_of_false Bool.false_ne_true (by linarith)
  · rw [le_iff_compare, h.below (by linarith), compare_infinity _ hy]
    exact iff_of_true rfl (by linarith)

/-- The order of a finite double and a rounded value, which may be infinite. -/
theorem RoundsTo.ge_iff (h : RoundsTo x q) (hy : y.isFinite) : y ≤ x ↔ toRat y ≤ nearest q := by
  have bounds := abs_lt.1 (abs_toRat_lt y)
  by_cases inside : |nearest q| < overflow
  · obtain ⟨hx, value⟩ := h.inside inside
    rw [le_iff_toRat hy hx, value]
  rw [le_iff_compare, compare_swap x.toModel.unpack]
  rcases le_abs.1 (not_lt.1 inside) with above | below
  · rw [h.above above, compare_infinity _ hy]
    exact iff_of_true rfl (by linarith)
  · rw [h.below (by linarith), compare_infinity _ hy]
    exact iff_of_false Bool.false_ne_true (by linarith)

/-- What is rounded to is never NaN. -/
theorem RoundsTo.isNaN_eq_false (h : RoundsTo x q) : x.isNaN = false := by
  by_cases inside : |nearest q| < overflow
  · exact isNaN_eq_false_of_isFinite (h.inside inside).1
  rcases le_abs.1 (not_lt.1 inside) with above | below
  · exact congrArg UnpackedFloat.isNaN (h.above above)
  · exact congrArg UnpackedFloat.isNaN (h.below (by linarith))

/-- What is not far from zero is rounded to a finite double. -/
theorem RoundsTo.inside_of_abs_le {e : Int} (h : RoundsTo x q) (small : |q| ≤ 2 ^ e)
    (low : -1074 ≤ e) (high : e < 1024) : x.isFinite ∧ toRat x = nearest q :=
  h.inside ((abs_nearest_le_zpow low small).trans_lt (zpow_lt_overflow high))

/-- A number between two finite doubles is finite. -/
theorem isFinite_of_between {z : Float} (hx : x.isFinite) (hy : y.isFinite) (low : x ≤ z)
    (high : ¬ z > y) : z.isFinite := by
  rw [le_iff_compare, compare_swap z.toModel.unpack] at low
  rw [gt_iff_lt, lt_iff_compare, compare_swap z.toModel.unpack] at high
  change z.toModel.unpack.isFinite
  cases unpacked : z.toModel.unpack with
  | notANumber =>
    rw [unpacked, (compare_eq_none_iff .notANumber _).2 (.inl rfl)] at low
    cases low
  | infinity s =>
    rw [unpacked, compare_infinity s hx] at low
    rw [unpacked, compare_infinity s hy] at high
    cases s with
    | negative => cases low
    | positive => exact absurd rfl high
  | _ => rfl

/-- Doubles are rounded to themselves. -/
theorem nearest_toRat (hx : x.isFinite) : nearest (toRat x) = toRat x :=
  (isNearest_self (isCanonical_unpack x).1 hx).value.symm

theorem canonicalIn_toModel (x : Float) : CanonicalIn .binary64 x.toModel.unpack :=
  (isCanonical_iff _).1 (isCanonical_unpack x).1

/-- Sums are rounded once. -/
theorem add_roundsTo (hx : x.isFinite) (hy : y.isFinite) : RoundsTo (x + y) (toRat x + toRat y) :=
  (add_nearestIn (canonicalIn_toModel x) (canonicalIn_toModel y) hx hy).isNearest.roundsTo

/-- Differences are rounded once. -/
theorem sub_roundsTo (hx : x.isFinite) (hy : y.isFinite) : RoundsTo (x - y) (toRat x - toRat y) :=
  (sub_nearestIn (canonicalIn_toModel x) (canonicalIn_toModel y) hx hy).isNearest.roundsTo

/-- Products are rounded once. -/
theorem mul_roundsTo (hx : x.isFinite) (hy : y.isFinite) : RoundsTo (x * y) (toRat x * toRat y) :=
  (mul_nearestIn (canonicalIn_toModel x) (canonicalIn_toModel y) hx hy).isNearest.roundsTo

/-- Quotients are rounded once. -/
theorem div_roundsTo (hx : x.isFinite) (hy : y.isFinite) (nonzero : toRat y ≠ 0) :
    RoundsTo (x / y) (toRat x / toRat y) :=
  (div_nearestIn hx hy nonzero).isNearest.roundsTo

/-- A finite sum has finite summands. -/
theorem isFinite_of_add (h : (x + y).isFinite) : x.isFinite ∧ y.isFinite :=
  finite_of_add (finite_of_pack h)

theorem isFinite_of_sub (h : (x - y).isFinite) : x.isFinite ∧ y.isFinite :=
  finite_of_sub (finite_of_pack h)

theorem isFinite_of_mul (h : (x * y).isFinite) : x.isFinite ∧ y.isFinite :=
  finite_of_mul (finite_of_pack h)

/-- Integers of at most 53 bits are doubles. -/
theorem nearest_intCast {n : Int} (small : |n| ≤ 2 ^ 53) : nearest n = n := by
  rcases small.lt_or_eq with less | most
  · have := nearest_scaled (n := n) (e := 0) less (by norm_num)
    rwa [zpow_zero, mul_one] at this
  · have power : nearest (2 ^ 53) = 2 ^ 53 := by
      simpa using nearest_zpow (e := 53) (by norm_num)
    rcases (abs_eq (by positivity)).1 most with rfl | rfl
    · exact_mod_cast power
    · have := nearest_neg (2 ^ 53)
      rw [power] at this
      exact_mod_cast this

/-- Integers of at most 53 bits are doubles, so rounding does not pass them. -/
theorem intCast_le_nearest {n : Int} (small : |n| ≤ 2 ^ 53) (h : n ≤ q) : n ≤ nearest q :=
  (nearest_intCast small).ge.trans (nearest_mono h)

theorem nearest_le_intCast {n : Int} (small : |n| ≤ 2 ^ 53) (h : q ≤ n) : nearest q ≤ n :=
  (nearest_mono h).trans (nearest_intCast small).le

theorem nearest_natCast {n : Nat} (small : n < 2 ^ 53) : nearest n = n := by
  have := nearest_intCast (n := n) (by rw [Nat.abs_cast]; exact_mod_cast small.le)
  rwa [Int.cast_natCast] at this

theorem nearest_one : nearest 1 = 1 := by
  exact_mod_cast nearest_natCast (n := 1) (by norm_num)

theorem natCast_lt_overflow {n : Nat} (small : n < 2 ^ 53) : (n : ℚ) < overflow := by
  have : (n : ℚ) < 2 ^ (53 : Int) := by exact_mod_cast small
  exact this.trans (zpow_lt_overflow (by norm_num))

theorem toFloat_roundsTo (n : UInt64) : RoundsTo n.toFloat n.toNat := by
  have := (normalize_nearestIn .binary64 n.toNat 0 .positive).isNearest.roundsTo
  rwa [Int.cast_natCast, zpow_zero, mul_one] at this

/-- Natural numbers of at most 53 bits are doubles. -/
theorem toRat_toFloat {n : UInt64} (small : n.toNat < 2 ^ 53) :
    n.toFloat.isFinite ∧ toRat n.toFloat = n.toNat := by
  have := (toFloat_roundsTo n).inside (by
    rw [nearest_natCast small, Nat.abs_cast]
    exact natCast_lt_overflow small)
  rwa [nearest_natCast small] at this

/-- Naturals below `2 ^ 53` are converted exactly. -/
theorem toRat_natCast {n : Nat} (small : n < 2 ^ 53) :
    n.toUInt64.toFloat.isFinite ∧ toRat n.toUInt64.toFloat = n := by
  have same : n.toUInt64.toNat = n := by
    change n % 2 ^ 64 = n
    omega
  have := toRat_toFloat (n := n.toUInt64) (by omega)
  rwa [same] at this

/-- A double that is multiplied with a power of two needs no rounding. -/
theorem nearest_two_pow_mul {x : Float} (hx : x.isFinite) (k : Nat) :
    nearest (2 ^ k * toRat x) = 2 ^ k * toRat x := by
  have canonical := (isCanonical_unpack x).1
  have finite : x.toModel.unpack.isFinite := hx
  unfold toRat
  generalize x.toModel.unpack = u at canonical finite
  rcases u with _ | _ | s | ⟨s, m, e, hm⟩
  · cases finite
  · cases finite
  · simp [rat, nearest_zero]
  · have exact := nearest_scaled (n := m) (e := e + k) (by exact_mod_cast canonical.1)
      (by have := canonical.2.1; omega)
    have value : 2 ^ k * rat (.finite s m e hm) = signFactor s * ((m : Int) * 2 ^ (e + k)) := by
      rw [rat, zpow_add₀ two_ne_zero, zpow_natCast]
      push_cast
      ring
    rw [value, nearest_signFactor, exact]

end Float

end Curves.Number

import Curves.Proofs.Number.Arithmetic

/-!
# Numbers that may be infinite

An infinity stays what it is if a finite number is added, and if it is multiplied with or divided by
a positive one. So how far a number is from zero, on one side, can be followed through sums,
products and quotients that overflow. What lies strictly between two numbers is finite, and the
strict order is transitive.
-/

namespace Curves.Number
open Float.Model (UnpackedFloat)
open Float.Model.UnpackedFloat (Sign)

/-- Whether `x` is the infinity of the given sign, or finite and at least `c` away from zero on that
side. -/
def Beyond (s : Sign) (c : ℚ) (x : Float) : Prop :=
  x.toModel.unpack = .infinity s ∨ x.isFinite ∧ c ≤ signFactor s * toRat x

section Beyond
variable {s : Sign} {c q : ℚ} {x y : Float}

theorem unpack_of_pos (hy : y.isFinite) (positive : 0 < toRat y) :
    ∃ m e h, y.toModel.unpack = .finite .positive m e h := by
  have finite : y.toModel.unpack.isFinite := hy
  unfold toRat at positive
  generalize y.toModel.unpack = u at finite positive
  rcases u with _ | _ | s | ⟨s, m, e, h⟩
  · cases finite
  · cases finite
  · exact absurd positive (lt_irrefl 0)
  · cases s with
    | positive => exact ⟨m, e, h, rfl⟩
    | negative =>
      have := scaled_pos h e
      rw [rat, signFactor] at positive
      linarith

theorem div_infinity (hx : x.toModel.unpack = .infinity s) (hy : y.isFinite)
    (positive : 0 < toRat y) : (x / y).toModel.unpack = .infinity s := by
  obtain ⟨m, e, h, unpacked⟩ := unpack_of_pos hy positive
  have quotient : x / y = .ofModel (.pack (.infinity s)) := by
    change Float.ofModel (.pack (x.toModel.unpack.div _ y.toModel.unpack)) = _
    rw [hx, unpacked]
    cases s <;> rfl
  rw [quotient]
  exact unpack_pack (u := .infinity s) trivial

theorem mul_infinity (hx : x.toModel.unpack = .infinity s) (hy : y.isFinite)
    (positive : 0 < toRat y) : (x * y).toModel.unpack = .infinity s := by
  obtain ⟨m, e, h, unpacked⟩ := unpack_of_pos hy positive
  have product : x * y = .ofModel (.pack (.infinity s)) := by
    change Float.ofModel (.pack (x.toModel.unpack.mul _ y.toModel.unpack)) = _
    rw [hx, unpacked]
    cases s <;> rfl
  rw [product]
  exact unpack_pack (u := .infinity s) trivial

theorem add_infinity (hx : x.toModel.unpack = .infinity s) (hy : y.isFinite) :
    (x + y).toModel.unpack = .infinity s := by
  have finite : y.toModel.unpack.isFinite := hy
  have sum : x + y = .ofModel (.pack (.infinity s)) := by
    change Float.ofModel (.pack (x.toModel.unpack.add _ y.toModel.unpack)) = _
    rw [hx]
    generalize y.toModel.unpack = u at finite
    cases u with
    | notANumber => cases finite
    | infinity => cases finite
    | _ => rfl
  rw [sum]
  exact unpack_pack (u := .infinity s) trivial

theorem add_notANumber (hx : x.toModel.unpack = .notANumber) (y : Float) :
    (x + y).toModel.unpack = .notANumber := by
  have sum : x + y = .ofModel (.pack .notANumber) := by
    change Float.ofModel (.pack (x.toModel.unpack.add _ y.toModel.unpack)) = _
    rw [hx]
    cases y.toModel.unpack <;> rfl
  rw [sum]
  exact unpack_pack (u := .notANumber) trivial

/-- An infinity stays what it is if a finite number is taken away. -/
theorem infinity_sub (hx : x.toModel.unpack = .infinity s) (hy : y.isFinite) :
    (x - y).toModel.unpack = .infinity s := by
  have finite : y.toModel.unpack.isFinite := hy
  have difference : x - y = .ofModel (.pack (.infinity s)) := by
    change Float.ofModel (.pack (x.toModel.unpack.sub _ y.toModel.unpack)) = _
    rw [hx]
    generalize y.toModel.unpack = u at finite
    cases u with
    | notANumber => cases finite
    | infinity => cases finite
    | _ => rfl
  rw [difference]
  exact unpack_pack (u := .infinity s) trivial

/-- What is left of a finite number if an infinity is taken away is the other infinity. -/
theorem sub_infinity (hx : x.isFinite) (hy : y.toModel.unpack = .infinity s) :
    (x - y).toModel.unpack = .infinity (-s) := by
  have finite : x.toModel.unpack.isFinite := hx
  have difference : x - y = .ofModel (.pack (.infinity (-s))) := by
    change Float.ofModel (.pack (x.toModel.unpack.sub _ y.toModel.unpack)) = _
    rw [hy]
    generalize x.toModel.unpack = u at finite
    cases u with
    | notANumber => cases finite
    | infinity => cases finite
    | _ => rfl
  rw [difference]
  exact unpack_pack (u := .infinity (-s)) trivial

/-- The difference of two infinities is NaN if they are the same, and else the first one. -/
theorem infinity_sub_infinity {t : Sign} (hx : x.toModel.unpack = .infinity s)
    (hy : y.toModel.unpack = .infinity t) : (s = t → (x - y).toModel.unpack = .notANumber) ∧
      (s ≠ t → (x - y).toModel.unpack = .infinity s) := by
  change
    (_ → (Float.ofModel (.pack (x.toModel.unpack.sub _ y.toModel.unpack))).toModel.unpack = _) ∧
      (_ → (Float.ofModel (.pack (x.toModel.unpack.sub _ y.toModel.unpack))).toModel.unpack = _)
  rw [hx, hy]
  constructor
  · rintro rfl
    cases s <;> exact unpack_pack (u := .notANumber) trivial
  · intro differ
    cases s <;> cases t
    case negative.positive => exact unpack_pack (u := .infinity .negative) trivial
    case positive.negative => exact unpack_pack (u := .infinity .positive) trivial
    all_goals exact absurd rfl differ

theorem finite_or_infinity (hx : x.isNaN = false) :
    x.isFinite ∨ ∃ s, x.toModel.unpack = .infinity s := by
  have number : x.toModel.unpack.isNaN = false := hx
  change x.toModel.unpack.isFinite ∨ _
  generalize x.toModel.unpack = u at number
  cases u with
  | notANumber => cases number
  | infinity s => exact .inr ⟨s, rfl⟩
  | _ => exact .inl rfl

theorem isNaN_of_infinity (hx : x.toModel.unpack = .infinity s) : x.isNaN = false :=
  congrArg UnpackedFloat.isNaN hx

theorem isNaN_div (hx : x.isNaN = false) (hy : y.isFinite) (positive : 0 < toRat y) :
    (x / y).isNaN = false := by
  rcases finite_or_infinity hx with finite | ⟨s, infinite⟩
  · exact (div_roundsTo finite hy positive.ne').isNaN_eq_false
  · exact isNaN_of_infinity (div_infinity infinite hy positive)

theorem isNaN_mul (hx : x.isNaN = false) (hy : y.isFinite) (positive : 0 < toRat y) :
    (x * y).isNaN = false := by
  rcases finite_or_infinity hx with finite | ⟨s, infinite⟩
  · exact (mul_roundsTo finite hy).isNaN_eq_false
  · exact isNaN_of_infinity (mul_infinity infinite hy positive)

theorem isNaN_add (hx : x.isNaN = false) (hy : y.isFinite) : (x + y).isNaN = false := by
  rcases finite_or_infinity hx with finite | ⟨s, infinite⟩
  · exact (add_roundsTo finite hy).isNaN_eq_false
  · exact isNaN_of_infinity (add_infinity infinite hy)

/-- A rounded value is finite, or it is the infinity on the side where it is too large. -/
theorem RoundsTo.finite_or_infinity (h : RoundsTo x q) : x.isFinite ∧ |nearest q| < overflow ∨
    ∃ s, x.toModel.unpack = .infinity s ∧ overflow ≤ signFactor s * nearest q := by
  by_cases inside : |nearest q| < overflow
  · exact .inl ⟨(h.inside inside).1, inside⟩
  rcases le_abs.1 (not_lt.1 inside) with above | below
  · refine .inr ⟨.positive, h.above above, ?_⟩
    rwa [signFactor, one_mul]
  · refine .inr ⟨.negative, h.below (by linarith), ?_⟩
    rwa [signFactor, neg_one_mul]

theorem gt_of_infinity (hx : x.toModel.unpack = .infinity .positive) (hy : y.isFinite) : x > y := by
  rw [gt_iff_lt, lt_iff_compare, compare_swap x.toModel.unpack, hx, compare_infinity _ hy]
  rfl

/-- Rounding does not bring a number nearer to zero than a bound that is rounded as well. -/
theorem beyond_of_roundsTo (h : RoundsTo x q) (nonneg : 0 ≤ c) (hc : c ≤ signFactor s * q) :
    Beyond s (nearest c) x := by
  have order := nearest_mono hc
  rw [nearest_signFactor] at order
  have positive := (nearest_nonneg nonneg).trans order
  by_cases inside : |nearest q| < overflow
  · obtain ⟨hx, value⟩ := h.inside inside
    exact .inr ⟨hx, value ▸ order⟩
  have large := overflow_pos
  -- the sign tells which of the two infinities it is
  rcases le_abs.1 (not_lt.1 inside) with above | below
  · cases s with
    | positive => exact .inl (h.above above)
    | negative =>
      rw [signFactor] at positive
      linarith
  · cases s with
    | positive =>
      rw [signFactor] at positive
      linarith
    | negative => exact .inl (h.below (by linarith))

theorem Beyond.div (hx : Beyond s c x) (hy : y.isFinite) (positive : 0 < toRat y) (nonneg : 0 ≤ c) :
    Beyond s (nearest (c / toRat y)) (x / y) := by
  rcases hx with infinite | ⟨finite, far⟩
  · exact .inl (div_infinity infinite hy positive)
  · refine beyond_of_roundsTo (div_roundsTo finite hy positive.ne') (by positivity) ?_
    rw [← mul_div_assoc]
    gcongr

theorem Beyond.mul (hx : Beyond s c x) (hy : y.isFinite) (positive : 0 < toRat y) (nonneg : 0 ≤ c) :
    Beyond s (nearest (c * toRat y)) (x * y) := by
  rcases hx with infinite | ⟨finite, far⟩
  · exact .inl (mul_infinity infinite hy positive)
  · refine beyond_of_roundsTo (mul_roundsTo finite hy) (by positivity) ?_
    rw [← mul_assoc]
    gcongr

theorem Beyond.add (hx : Beyond s c x) (hy : y.isFinite) (nonneg : 0 ≤ c + signFactor s * toRat y) :
    Beyond s (nearest (c + signFactor s * toRat y)) (x + y) := by
  rcases hx with infinite | ⟨finite, far⟩
  · exact .inl (add_infinity infinite hy)
  · refine beyond_of_roundsTo (add_roundsTo finite hy) nonneg ?_
    rw [mul_add]
    gcongr

theorem beyond_of_gt (hy : y.isFinite) (more : x > y) : Beyond .positive (toRat y) x := by
  rcases finite_or_infinity (isNaN_eq_false_of_gt more) with finite | ⟨s, infinite⟩
  · refine .inr ⟨finite, ?_⟩
    rw [signFactor, one_mul]
    exact ((lt_iff_toRat hy finite).1 more).le
  · rw [gt_iff_lt, lt_iff_compare, compare_swap x.toModel.unpack, infinite,
      compare_infinity s hy] at more
    cases s with
    | positive => exact .inl infinite
    | negative => cases more

/-- What is beyond a finite number is not less, on the positive side. -/
theorem Beyond.le (hx : Beyond .positive c x) (hy : y.isFinite) (less : toRat y ≤ c) : y ≤ x := by
  rcases hx with infinite | ⟨finite, far⟩
  · rw [le_iff_compare, compare_swap x.toModel.unpack, infinite, compare_infinity _ hy]
    rfl
  · rw [signFactor, one_mul] at far
    exact (le_iff_toRat hy finite).2 (less.trans far)

/-- What is beyond a finite number is not greater, on the negative side. -/
theorem Beyond.ge (hx : Beyond .negative c x) (hy : y.isFinite) (less : -c ≤ toRat y) : x ≤ y := by
  rcases hx with infinite | ⟨finite, far⟩
  · rw [le_iff_compare, infinite, compare_infinity _ hy]
    rfl
  · rw [signFactor, neg_one_mul] at far
    exact (le_iff_toRat finite hy).2 (by linarith)

end Beyond

/-! ## Strict order -/

section Order
variable {a b c : Float}

theorem not_infinity_lt (ha : a.toModel.unpack = .infinity .positive) : ¬ a < b := by
  rw [lt_iff_compare, ha]
  rcases b.toModel.unpack with (_ | _) | _ | _ | _ <;> exact fun less => by cases less

/-- Nothing is less than the negative infinity. -/
theorem not_lt_infinity (hb : b.toModel.unpack = .infinity .negative) : ¬ a < b := by
  rw [lt_iff_compare, hb]
  rcases a.toModel.unpack with (_ | _) | _ | _ | _ <;> exact fun less => by cases less

/-- Numbers below something are finite or the least of all. -/
theorem finite_or_infinity_of_lt (h : a < b) :
    a.isFinite ∨ a.toModel.unpack = .infinity .negative := by
  have number := ((le_iff_not_gt (isNaN_eq_false_of_gt h)).1 (le_of_lt h)).1
  rcases finite_or_infinity number with finite | ⟨s, infinite⟩
  · exact .inl finite
  · cases s with
    | positive => exact absurd h (not_infinity_lt infinite)
    | negative => exact .inr infinite

/-- Numbers above something are finite or the greatest of all. -/
theorem finite_or_infinity_of_gt (h : a < b) :
    b.isFinite ∨ b.toModel.unpack = .infinity .positive := by
  rcases finite_or_infinity (isNaN_eq_false_of_gt h) with finite | ⟨s, infinite⟩
  · exact .inl finite
  · cases s with
    | positive => exact .inr infinite
    | negative => exact absurd h (not_lt_infinity infinite)

/-- What lies strictly between two numbers is finite, even if they are not. -/
theorem isFinite_of_lt_of_lt (low : a < b) (high : b < c) : b.isFinite := by
  rcases finite_or_infinity_of_gt low with finite | infinite
  · exact finite
  · exact absurd high (not_infinity_lt infinite)

/-- The strict order is transitive, for infinities too. -/
theorem float_lt_trans (low : a < b) (high : b < c) : a < c := by
  have hb := isFinite_of_lt_of_lt low high
  rcases finite_or_infinity_of_lt low with ha | ha <;>
    rcases finite_or_infinity_of_gt high with hc | hc
  · rw [lt_iff_toRat ha hb] at low
    rw [lt_iff_toRat hb hc] at high
    exact (lt_iff_toRat ha hc).2 (low.trans high)
  · rw [lt_iff_compare, compare_swap c.toModel.unpack, hc, compare_infinity _ ha]
    rfl
  · rw [lt_iff_compare, ha, compare_infinity _ hc]
    rfl
  · rw [lt_iff_compare, ha, hc]
    rfl

instance trans_float : @Trans Float Float Float (· < ·) (· < ·) (· < ·) where
  trans := float_lt_trans

end Order

end Curves.Number

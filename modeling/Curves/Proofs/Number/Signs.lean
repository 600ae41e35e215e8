import Curves.Proofs.Number.Arithmetic

/-!
# Signs

A number and its opposite have the same magnitude and are rounded alike, so a sign may be taken out
of a product and of a quotient, and a difference is the sum with the opposite. All equations are
exact: they hold for zeros and infinities, too, and NaN is its own opposite.

Main statements:

* `negated_mul`, `negated_div`: a sign in front of the first operand;
* `negated_cube`: the third power of the opposite;
* `sub_eq_add_negated`: differences.
-/

namespace Curves.Number
open Float.Model (Format UnpackedFloat)
open Float.Model.UnpackedFloat (Sign Accuracy roundWithAccuracy)

/-! ## Unpacked numbers -/

section Unpacked
variable {f : Format} {u v : UnpackedFloat}

theorem neg_sign_mul (s t : Sign) : -s * t = -(s * t) := by
  cases s <;> cases t <;> rfl

theorem sign_mul_comm (s t : Sign) : s * t = t * s := by
  cases s <;> cases t <;> rfl

theorem neg_sign_div (s t : Sign) : -s / t = -(s / t) := by
  cases s <;> cases t <;> rfl

theorem opposite_opposite (u : UnpackedFloat) : u.neg.neg = u := by
  rcases u with (_ | _) | _ | (_ | _) | ⟨_ | _, _, _, _⟩ <;> rfl

theorem isCanonical_opposite (hu : IsCanonical u) : IsCanonical u.neg := by
  cases u <;> exact hu

theorem bounded_opposite (u : UnpackedFloat) : bounded u.neg = (bounded u).neg := by
  cases u with
  | finite s m e h =>
    simp only [UnpackedFloat.neg, bounded]
    split <;> rfl
  | _ => rfl

/-- The sign has no influence on how a magnitude is rounded. -/
theorem roundWithAccuracy_opposite (f : Format) (s : Sign) (m : Nat) (e : Int) (acc : Accuracy) :
    roundWithAccuracy f (-s) m e acc = (roundWithAccuracy f s m e acc).neg := by
  simp only [roundWithAccuracy]
  split <;> rfl

theorem mul_opposite (f : Format) (u v : UnpackedFloat) : u.neg.mul f v = (u.mul f v).neg := by
  rcases u with s | _ | s | ⟨s, m, e, h⟩ <;> rcases v with t | _ | t | ⟨t, n, i, h'⟩ <;>
    simp only [UnpackedFloat.neg, UnpackedFloat.mul, neg_sign_mul, roundWithAccuracy_opposite]

theorem mul_comm_unpacked (f : Format) (u v : UnpackedFloat) : u.mul f v = v.mul f u := by
  rcases u with s | _ | s | ⟨s, m, e, h⟩ <;> rcases v with t | _ | t | ⟨t, n, i, h'⟩ <;>
    simp only [UnpackedFloat.mul, sign_mul_comm, Nat.mul_comm, Int.add_comm]

theorem div_opposite (f : Format) (u v : UnpackedFloat) : u.neg.div f v = (u.div f v).neg := by
  rcases u with s | _ | s | ⟨s, m, e, h⟩ <;> rcases v with t | _ | t | ⟨t, n, i, h'⟩ <;>
    simp only [UnpackedFloat.neg, UnpackedFloat.div, neg_sign_div, roundWithAccuracy_opposite]

theorem isCanonical_of_not_finite (hu : u.isFinite = false) : IsCanonical u :=
  (isCanonical_iff u).2 (boundedIn_eq_self (f := .binary64) hu).1

theorem isCanonical_mul (hu : IsCanonical u) (hv : IsCanonical v) :
    IsCanonical (u.mul .binary64 v) := by
  rw [isCanonical_iff] at hu hv
  cases finite : (u.mul .binary64 v).isFinite with
  | false => exact isCanonical_of_not_finite finite
  | true =>
    obtain ⟨fu, fv⟩ := finite_of_mul finite
    exact (isCanonical_iff _).2 (mul_nearestIn hu hv fu fv).canonical

/-- Quotients that are not quotients of numbers are zero, infinite or NaN. -/
theorem isCanonical_div (u v : UnpackedFloat) : IsCanonical (u.div .binary64 v) := by
  rcases u with s | _ | s | ⟨s, m, e, h⟩ <;> rcases v with t | _ | t | ⟨t, n, i, h'⟩ <;>
    first
    | exact trivial
    | exact (isCanonical_iff _).2 (div_scaled_nearestIn h h').canonical

end Unpacked

/-! ## Doubles -/

section Float
variable {u : UnpackedFloat}

theorem pack_bounded (hu : IsCanonical u) :
    Float.ofModel (.pack (bounded u)) = .ofModel (.pack u) := by
  rw [← unpack_pack hu]
  exact ofModel_pack_unpack (.ofModel (.pack u))

theorem neg_pack (hu : IsCanonical u) : -Float.ofModel (.pack u) = .ofModel (.pack u.neg) := by
  change Float.ofModel (.pack (Float.Model.pack u).unpack.neg) = _
  rw [unpack_pack hu, ← bounded_opposite, pack_bounded (isCanonical_opposite hu)]

/-- Negation changes the sign only. -/
theorem unpack_neg (x : Float) : (-x).toModel.unpack = x.toModel.unpack.neg := by
  obtain ⟨canonical, fits⟩ := isCanonical_unpack x
  change (Float.Model.pack x.toModel.unpack.neg).unpack = _
  rw [unpack_pack (isCanonical_opposite canonical), bounded_opposite, fits]

theorem negated_negated (x : Float) : - -x = x := by
  change Float.ofModel (.pack (-x).toModel.unpack.neg) = x
  rw [unpack_neg, opposite_opposite, ofModel_pack_unpack]

theorem mul_swap (x y : Float) : x * y = y * x :=
  congrArg (fun u => Float.ofModel (.pack u)) (mul_comm_unpacked .binary64 ..)

/-- A sign can be taken out of a product. -/
theorem negated_mul (x y : Float) : -x * y = -(x * y) := by
  have product := neg_pack (isCanonical_mul (isCanonical_unpack x).1 (isCanonical_unpack y).1)
  change Float.ofModel (.pack ((-x).toModel.unpack.mul .binary64 y.toModel.unpack)) = _
  rw [unpack_neg, mul_opposite]
  exact product.symm

/-- A sign can be taken out of a quotient. -/
theorem negated_div (x y : Float) : -x / y = -(x / y) := by
  have quotient := neg_pack (isCanonical_div x.toModel.unpack y.toModel.unpack)
  change Float.ofModel (.pack ((-x).toModel.unpack.div .binary64 y.toModel.unpack)) = _
  rw [unpack_neg, div_opposite]
  exact quotient.symm

/-- A sign can be taken out of a cube. -/
theorem negated_cube (x : Float) : -x * -x * -x = -(x * x * x) := by
  calc -x * -x * -x = x * x * -x := by
        rw [negated_mul x, mul_swap x, negated_mul x, negated_negated]
    _ = -(x * x * x) := by rw [mul_swap _ (-x), negated_mul, mul_swap x]

/-- A difference is a sum with a negated summand. -/
theorem sub_eq_add_negated (x y : Float) : x - y = x + -y := by
  change Float.ofModel (.pack (x.toModel.unpack.sub .binary64 y.toModel.unpack)) =
    .ofModel (.pack (x.toModel.unpack.add .binary64 (-y).toModel.unpack))
  rw [unpack_neg, sub_eq_add_opposite]

end Float

end Curves.Number

import Curves.Number.Single
import Curves.Proofs.Number.Arithmetic

/-!
# Single precision

Sums, differences and products in single precision, and doubles made single, are the exact results
rounded to nearest.
-/

namespace Curves.Number
open Float.Model (Format UnpackedFloat)

def singleRat (x : Float32) : ℚ := rat x.toModel.unpack

def RoundsToSingle (x : Float32) (q : ℚ) : Prop := RoundsIn .binary32 x.toModel.unpack q

theorem canonicalIn_single (x : Float32) : CanonicalIn .binary32 x.toModel.unpack ∧
    boundedIn .binary32 x.toModel.unpack = x.toModel.unpack :=
  canonicalIn_unpack (by decide) _

theorem unpack_pack_single {u : UnpackedFloat} (hu : CanonicalIn .binary32 u) :
    (Float32.Model.pack u).unpack = boundedIn .binary32 u :=
  unpack_packIn (by decide) hu

theorem NearestIn.roundsToSingle {u : UnpackedFloat} {q : ℚ} (h : NearestIn .binary32 u q) :
    RoundsToSingle (.ofModel (.pack u)) q := by
  have unpacked : (Float32.ofModel (.pack u)).toModel.unpack = boundedIn .binary32 u :=
    unpack_pack_single h.canonical
  rw [RoundsToSingle, unpacked]
  exact h.roundsIn (by decide)

theorem finite_of_pack_single {u : UnpackedFloat} (h : (Float32.ofModel (.pack u)).isFinite) :
    u.isFinite := by
  by_contra hu
  obtain ⟨canonical, fits⟩ := boundedIn_eq_self (f := .binary32) (Bool.eq_false_iff.2 hu)
  have packed := unpack_pack_single canonical
  rw [fits] at packed
  exact hu ((congrArg UnpackedFloat.isFinite packed).symm.trans h)

section Single
variable {x y : Float32} {q : ℚ}

theorem RoundsToSingle.singleRat_eq (h : RoundsToSingle x q) (hx : x.isFinite) :
    singleRat x = nearestIn .binary32 q :=
  h.rat_eq hx

theorem abs_singleRat_lt (x : Float32) : |singleRat x| < overflowIn .binary32 :=
  abs_rat_lt (by decide) (canonicalIn_single x).1 (canonicalIn_single x).2

/-- What is rounded between two numbers stays between them. -/
theorem RoundsToSingle.isFinite_of_between {z : Float32} (h : RoundsToSingle z q)
    (low : singleRat x ≤ nearestIn .binary32 q) (high : nearestIn .binary32 q ≤ singleRat y) :
    z.isFinite := by
  have := abs_lt.1 (abs_singleRat_lt x)
  have := abs_lt.1 (abs_singleRat_lt y)
  exact (h.inside (abs_lt.2 ⟨by linarith, by linarith⟩)).1

theorem nearestIn_singleRat (hx : x.isFinite) :
    nearestIn .binary32 (singleRat x) = singleRat x :=
  (nearestIn_self (canonicalIn_single x).1 hx).value.symm

/-- Finite single-precision numbers are ordered by their values. -/
theorem single_le_iff (hx : x.isFinite) (hy : y.isFinite) : x ≤ y ↔ singleRat x ≤ singleRat y := by
  have order := compare_eq_cmpIn (canonicalIn_single x).1 (canonicalIn_single y).1 hx hy
  have compared : x ≤ y ↔ (x.toModel.unpack.compare y.toModel.unpack).any (·.isLE) :=
    decide_eq_true_iff
  rw [compared, order, Option.any_some, ← Ordering.ne_gt_iff_isLE, not_congr (cmp_eq_gt_iff _ _),
    not_lt]
  rfl

theorem single_lt_iff (hx : x.isFinite) (hy : y.isFinite) : x < y ↔ singleRat x < singleRat y := by
  have order := compare_eq_cmpIn (canonicalIn_single x).1 (canonicalIn_single y).1 hx hy
  have compared : x < y ↔ x.toModel.unpack.compare y.toModel.unpack = some .lt :=
    decide_eq_true_iff.trans beq_iff_eq
  rw [compared, order, Option.some_inj, cmp_eq_lt_iff]
  rfl

theorem single_beq_iff (hx : x.isFinite) (hy : y.isFinite) :
    (x == y) = true ↔ singleRat x = singleRat y := by
  have order := compare_eq_cmpIn (canonicalIn_single x).1 (canonicalIn_single y).1 hx hy
  change (x.toModel.unpack.compare y.toModel.unpack == some .eq) = true ↔ _
  rw [order, beq_iff_eq, Option.some_inj, cmp_eq_eq_iff]
  rfl

/-- Single-precision sums are rounded once. -/
theorem single_add_rounds (hx : x.isFinite) (hy : y.isFinite) :
    RoundsToSingle (x + y) (singleRat x + singleRat y) :=
  (add_nearestIn (canonicalIn_single x).1 (canonicalIn_single y).1 hx hy).roundsToSingle

theorem single_sub_rounds (hx : x.isFinite) (hy : y.isFinite) :
    RoundsToSingle (x - y) (singleRat x - singleRat y) :=
  (sub_nearestIn (canonicalIn_single x).1 (canonicalIn_single y).1 hx hy).roundsToSingle

theorem single_mul_rounds (hx : x.isFinite) (hy : y.isFinite) :
    RoundsToSingle (x * y) (singleRat x * singleRat y) :=
  (mul_nearestIn (canonicalIn_single x).1 (canonicalIn_single y).1 hx hy).roundsToSingle

theorem isFinite_of_single_add (h : (x + y).isFinite) : x.isFinite ∧ y.isFinite :=
  finite_of_add (finite_of_pack_single h)

theorem isFinite_of_single_mul (h : (x * y).isFinite) : x.isFinite ∧ y.isFinite :=
  finite_of_mul (finite_of_pack_single h)

theorem singleRat_zero : (0.0 : Float32).isFinite ∧ singleRat 0.0 = 0 :=
  ⟨by decide +kernel, by rfl⟩

theorem singleRat_one : (1.0 : Float32).isFinite ∧ singleRat 1.0 = 1 := by
  have unpacked : (1.0 : Float32).toModel.unpack =
      .finite .positive (2 ^ 23) (-23) (by decide) := by
    rfl
  refine ⟨congrArg UnpackedFloat.isFinite unpacked, ?_⟩
  rw [singleRat, unpacked, rat, signFactor]
  norm_num

/-- Making a double single rounds it once. -/
theorem toSingle_rounds {x : Float} (hx : x.isFinite) : RoundsToSingle (toSingle x) (toRat x) := by
  have finite : x.toModel.unpack.isFinite := hx
  unfold toSingle toRat
  generalize x.toModel.unpack = u at finite
  rcases u with _ | _ | s | ⟨s, m, e, h⟩
  · cases finite
  · cases finite
  · exact (nearestIn_self (u := .zero s) trivial rfl).roundsToSingle
  · exact (round_nearestIn .binary32 s h e).roundsToSingle

end Single

end Curves.Number

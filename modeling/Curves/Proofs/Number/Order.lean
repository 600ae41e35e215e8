/-!
# The order of doubles

Two doubles are comparable unless one of them is NaN. The facts are read off the comparison of
unpacked doubles.
-/

namespace Curves.Number
open Float.Model

theorem compare_eq_none_iff (a b : UnpackedFloat) :
    a.compare b = none ↔ a.isNaN ∨ b.isNaN := by
  rcases a with (_ | _) | _ | (_ | _) | ⟨_ | _, _, _, _⟩ <;>
    rcases b with (_ | _) | _ | (_ | _) | ⟨_ | _, _, _, _⟩ <;>
      first
      | exact iff_of_true rfl (.inl rfl)
      | exact iff_of_true rfl (.inr rfl)
      | exact iff_of_false nofun (by rintro (h | h) <;> cases h)

/-- Comparing the other way gives the opposite order. -/
theorem compare_swap (a b : UnpackedFloat) : b.compare a = (a.compare b).map Ordering.swap := by
  have magnitudes (e₁ e₂ : Int) (m₁ m₂ : Nat) : (compare e₂ e₁).then (compare m₂ m₁) =
      ((compare e₁ e₂).then (compare m₁ m₂)).swap := by
    rw [Ordering.swap_then, Int.compare_swap, Nat.compare_swap]
  rcases a with (_ | _) | _ | (_ | _) | ⟨_ | _, _, _, _⟩ <;>
    rcases b with (_ | _) | _ | (_ | _) | ⟨_ | _, _, _, _⟩ <;>
      first
      | rfl
      | exact congrArg some (magnitudes _ _ _ _)
      | exact congrArg (some ·.swap) (magnitudes _ _ _ _)

section Float
variable {a b : Float}

/-- The order of doubles is that of their unpacked forms. -/
theorem le_iff_compare :
    a ≤ b ↔ (a.toModel.unpack.compare b.toModel.unpack).any (·.isLE) := decide_eq_true_iff

/-- The strict order of doubles is that of their unpacked forms. -/
theorem lt_iff_compare :
    a < b ↔ a.toModel.unpack.compare b.toModel.unpack = some .lt :=
  decide_eq_true_iff.trans beq_iff_eq

/-- Two doubles are in order, in the opposite strict order, or not comparable. -/
theorem le_iff_not_gt (hb : b.isNaN = false) : a ≤ b ↔ a.isNaN = false ∧ ¬ a > b := by
  have incomparable : a.toModel.unpack.compare b.toModel.unpack = none ↔ a.isNaN := by
    rw [compare_eq_none_iff]
    exact or_iff_left (Bool.eq_false_iff.1 hb)
  rw [le_iff_compare, gt_iff_lt, lt_iff_compare, compare_swap a.toModel.unpack,
    ← Bool.not_eq_true, ← incomparable]
  cases a.toModel.unpack.compare b.toModel.unpack with
  | none => simp
  | some order => cases order <;> simp

theorem le_of_lt (h : a < b) : a ≤ b := by
  rw [lt_iff_compare] at h
  rw [le_iff_compare, h]
  rfl

theorem not_gt_of_lt (h : a < b) : ¬ a > b := by
  rw [lt_iff_compare] at h
  rw [gt_iff_lt, lt_iff_compare, compare_swap a.toModel.unpack, h]
  exact nofun

theorem le_self (h : a.isNaN = false) : a ≤ a :=
  (le_iff_not_gt h).2 ⟨h, fun less => not_gt_of_lt less less⟩

/-- Doubles in strict order differ. -/
theorem bne_of_lt (h : a < b) : (a != b) = true ∧ (b != a) = true := by
  rw [lt_iff_compare] at h
  change (!(a.toModel.unpack.compare b.toModel.unpack == some .eq)) = true ∧
    (!(b.toModel.unpack.compare a.toModel.unpack == some .eq)) = true
  rw [compare_swap a.toModel.unpack, h]
  exact ⟨rfl, rfl⟩

/-- Doubles in order that differ are in strict order. -/
theorem lt_of_le_of_bne (h : a ≤ b) (differ : a != b) : a < b := by
  rw [le_iff_compare] at h
  change (!(a.toModel.unpack.compare b.toModel.unpack == some .eq)) = true at differ
  rw [lt_iff_compare]
  generalize a.toModel.unpack.compare b.toModel.unpack = order at h differ
  cases order with
  | none => cases h
  | some order =>
    cases order with
    | lt => rfl
    | eq => cases differ
    | gt => cases h

/-- NaN is the only double that is not equal to itself. -/
theorem beq_self_iff : (a == a) = true ↔ a.isNaN = false := by
  constructor
  · intro same
    refine Bool.eq_false_iff.2 fun ha => ?_
    change (a.toModel.unpack.compare a.toModel.unpack == some .eq) = true at same
    rw [(compare_eq_none_iff _ _).2 (.inl ha)] at same
    cases same
  · intro number
    cases same : a == a with
    | true => rfl
    | false =>
      have less : a < a := lt_of_le_of_bne (le_self number) (by simp [bne, same])
      exact absurd less (not_gt_of_lt less)

theorem isNaN_eq_false_of_gt (h : a > b) : a.isNaN = false := by
  refine Bool.eq_false_iff.2 fun ha => ?_
  have incomparable := (compare_eq_none_iff b.toModel.unpack a.toModel.unpack).2 (.inr ha)
  simp [gt_iff_lt, lt_iff_compare, incomparable] at h

theorem isNaN_eq_false_of_isFinite (h : a.isFinite) : a.isNaN = false := by
  change a.toModel.unpack.isFinite at h
  change a.toModel.unpack.isNaN = false
  revert h
  cases a.toModel.unpack with
  | notANumber => exact nofun
  | _ => exact fun _ => rfl

end Float

end Curves.Number

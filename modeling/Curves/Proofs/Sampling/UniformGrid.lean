import Curves.Proofs.Number.Arithmetic
import Curves.Sampling.Grid

/-!
# Uniform grids

A uniform grid should fill its window: it starts at the lower end, ends at the upper one, and its
values are finite, inside the window and in order. The offsets from the lower end are in order, so
this depends on the last of them. Each rounding on the way to it adds at most one part in `2 ^ 53`,
which the missing interval makes up for, unless the step is less than the least normal double. If
the width of the window overflows, so may an offset.
-/

namespace Curves.Sampling
open Number

/-- The values start at the lower end of the window, and are finite, inside it and in order. -/
structure Fills (sampling : Sampling) (xs : List Float) : Prop where
  first : xs.head?.any (· == sampling.low)
  finite : ∀ x ∈ xs, x.isFinite
  inside : ∀ x ∈ xs, sampling.low ≤ x ∧ x ≤ sampling.high
  sorted : xs.Pairwise (· ≤ ·)

def offset (sampling : Sampling) (i : Nat) : Float := i.toUInt64.toFloat * sampling.uniformStep

/-- The distance from the lower end to the last value before the upper end. -/
def lastOffset (sampling : Sampling) : Float := sampling.offset (sampling.resolution.toNat - 1)

theorem uniformValue_of_lt {sampling : Sampling} {i : Nat} (hi : i < sampling.resolution.toNat) :
    sampling.uniformValue i = sampling.low + sampling.offset i :=
  if_neg hi.ne

theorem uniformValue_last (sampling : Sampling) :
    sampling.uniformValue sampling.resolution.toNat = sampling.high :=
  if_pos rfl

def leastNormal : Float := .ofBits 0x0010000000000000

theorem toRat_leastNormal :
    leastNormal.isFinite ∧ toRat leastNormal = 2 ^ (-1022 : Int) := by
  have unpacked : leastNormal.toModel.unpack = .finite .positive (2 ^ 52) (-1074) (by decide) := by
    rfl
  obtain ⟨finite, value⟩ := toRat_of_unpack unpacked
  refine ⟨finite, ?_⟩
  rw [value, signFactor, one_mul, Nat.cast_pow, Nat.cast_ofNat, ← zpow_natCast,
    ← zpow_add₀ two_ne_zero]
  rfl

/-! ## Errors of rounding -/

theorem nearest_le {q : ℚ} (hq : 0 ≤ q) :
    (1 - 2 ^ (-53 : Int)) * nearest q ≤ q + 2 ^ (-1075 : Int) := by
  have error := (le_abs_self _).trans (abs_nearest_sub_le q)
  rw [abs_of_nonneg (nearest_nonneg hq)] at error
  have : (0 : ℚ) ≤ 2 ^ (-53 : Int) * nearest q := mul_nonneg (by positivity) (nearest_nonneg hq)
  have : (0 : ℚ) < 2 ^ (-1075 : Int) := by positivity
  have := error.trans (max_le_add_of_nonneg ‹_› this.le)
  linarith

/-- Beside a normal double the error of smaller numbers is as small as its own. -/
theorem leastError_le {s : ℚ} (normal : 2 ^ (-1022 : Int) ≤ s) :
    2 ^ (-1075 : Int) ≤ 2 ^ (-53 : Int) * s :=
  calc (2 : ℚ) ^ (-1075 : Int) = 2 ^ (-53 : Int) * 2 ^ (-1022 : Int) := by
        rw [← zpow_add₀ two_ne_zero]
        rfl
    _ ≤ 2 ^ (-53 : Int) * s := by gcongr

section Errors
variable {u δ n r s width : ℚ}

/-- `n` steps exceed the width by a few roundings at most: `r` is the step before it is rounded,
`u` and `δ` are the errors beside a result and below the least normal double. -/
theorem steps_le (hu : 0 ≤ u) (hu' : u ≤ 1) (hδ : 0 ≤ δ) (hn : 0 < n) (hs : 0 ≤ s)
    (exact : (1 - u) * r ≤ width / n + 2 * δ) (rounded : (1 - u) * s ≤ r + δ)
    (normal : δ ≤ u * s) : (1 - 5 * u) * (n * s) ≤ width := by
  have square : (1 - 2 * u) * (n * s) ≤ (1 - u) ^ 2 * (n * s) := by
    have : 0 ≤ n * s := by positivity
    gcongr
    nlinarith
  have scaled : (1 - u) ^ 2 * (n * s) ≤ width + 3 * (n * δ) :=
    calc (1 - u) ^ 2 * (n * s) = (1 - u) * n * ((1 - u) * s) := by ring
      _ ≤ (1 - u) * n * (r + δ) := by gcongr
      _ = n * ((1 - u) * r) + (1 - u) * (n * δ) := by ring
      _ ≤ n * (width / n + 2 * δ) + 1 * (n * δ) := by gcongr; linarith
      _ = width + 3 * (n * δ) := by field_simp; ring
  have slack : n * δ ≤ n * (u * s) := by gcongr
  linarith

theorem lastOffset_le {last : ℚ} (hu : 0 ≤ u) (hs : 0 ≤ s) (few : 6 * u * n + u ≤ 1)
    (hn : 1 ≤ n) (steps : (1 - 5 * u) * (n * s) ≤ width)
    (rounded : (1 - u) * last ≤ (n - 1) * s + δ) (normal : δ ≤ u * s) : last ≤ width := by
  have small : u < 1 := by nlinarith
  have : (1 - u) * last ≤ (1 - u) * width :=
    calc (1 - u) * last ≤ (n - 1 + u) * s := by linarith
      _ ≤ (1 - 6 * u) * n * s := by gcongr; linarith
      _ ≤ (1 - u) * ((1 - 5 * u) * (n * s)) := by
        have : 0 ≤ u ^ 2 * (n * s) := by positivity
        linarith
      _ ≤ (1 - u) * width := by gcongr
  exact le_of_mul_le_mul_left this (by linarith)

end Errors

/-! ## Steps and offsets -/

/-- What the checks say about the window and the resolution of a sampling. -/
structure HasWindow (sampling : Sampling) : Prop where
  low : sampling.low.isFinite
  high : sampling.high.isFinite
  ordered : toRat sampling.low < toRat sampling.high
  positive : 0 < sampling.resolution.toNat

/-- Checked samplings have a window. -/
theorem hasWindow {sampling : Sampling} (ok : sampling.check = .ok ()) : HasWindow sampling := by
  unfold check at ok
  split_ifs at ok with zero window
  simp only [Bool.or_eq_true, Bool.not_eq_true', decide_eq_true_eq, not_or, Bool.not_eq_false]
    at window
  obtain ⟨⟨low, high⟩, ordered⟩ := window
  refine ⟨low, high, ?_, ?_⟩
  · rwa [ge_iff_le, le_iff_toRat high low, not_le] at ordered
  · exact Nat.pos_of_ne_zero fun h => zero (UInt64.toNat_inj.1 h)

/-- What the checks and the limit on samples say about the sampling of a uniform grid. -/
structure HasUniformGrid (sampling : Sampling) : Prop extends HasWindow sampling where
  bounded : sampling.resolution.toNat < 2 ^ 24

/-- Checked samplings with few intervals have a uniform grid. -/
theorem hasUniformGrid {sampling : Sampling} (ok : sampling.check = .ok ())
    (few : sampling.resolution.toNat < maxGridSize) : HasUniformGrid sampling :=
  ⟨hasWindow ok, few⟩

namespace HasUniformGrid
variable {sampling : Sampling} (h : HasUniformGrid sampling)
include h

theorem intervals : 1 ≤ (sampling.resolution.toNat : ℚ) ∧
    (sampling.resolution.toNat : ℚ) ≤ 16777216 := by
  exact_mod_cast And.intro (show 1 ≤ sampling.resolution.toNat from h.positive) h.bounded.le

theorem toRat_index {i : Nat} (hi : i < sampling.resolution.toNat) :
    i.toUInt64.toFloat.isFinite ∧ toRat i.toUInt64.toFloat = i :=
  toRat_natCast (by have := h.bounded; omega)

theorem toRat_resolution : sampling.resolution.toFloat.isFinite ∧
    toRat sampling.resolution.toFloat = sampling.resolution.toNat :=
  toRat_toFloat (by have := h.bounded; omega)

theorem toRat_div_resolution {x : Float} (hx : x.isFinite) :
    (x / sampling.resolution.toFloat).isFinite ∧
      toRat (x / sampling.resolution.toFloat) = nearest (toRat x / sampling.resolution.toNat) := by
  have intervals := h.intervals.1
  obtain ⟨finite, value⟩ := h.toRat_resolution
  have divided := div_roundsTo hx finite (by rw [value]; linarith)
  rw [value] at divided
  refine divided.inside ?_
  have smaller : |toRat x / sampling.resolution.toNat| ≤ |toRat x| := by
    rw [abs_div, Nat.abs_cast]
    exact div_le_self (abs_nonneg _) intervals
  have := nearest_mono smaller
  rw [nearest_abs, nearest_abs, nearest_toRat hx] at this
  exact this.trans_lt (abs_toRat_lt x)

theorem toRat_width (finite : (sampling.high - sampling.low).isFinite) :
    toRat (sampling.high - sampling.low) = nearest (toRat sampling.high - toRat sampling.low) :=
  (sub_roundsTo h.high h.low).toRat_eq finite

/-- The width of a window overflows only if zero lies inside. -/
theorem ends_of_overflow (wide : ¬ (sampling.high - sampling.low).isFinite) :
    toRat sampling.low ≤ 0 ∧ 0 ≤ toRat sampling.high := by
  have inside := (sub_roundsTo h.high h.low).inside
  have positive := nearest_nonneg (sub_nonneg.2 h.ordered.le)
  rw [abs_of_nonneg positive] at inside
  constructor
  · by_contra! low
    have less := nearest_mono (sub_le_self (toRat sampling.high) low.le)
    rw [nearest_toRat h.high] at less
    exact wide (inside (less.trans_lt (abs_lt.1 (abs_toRat_lt _)).2)).1
  · by_contra! high
    have less := nearest_mono
      (show toRat sampling.high - toRat sampling.low ≤ -toRat sampling.low by linarith)
    rw [nearest_neg, nearest_toRat h.low] at less
    have := (abs_lt.1 (abs_toRat_lt sampling.low)).1
    exact wide (inside (by linarith)).1

/-- If the width does not overflow, it is rounded before it is divided. -/
theorem step_roundsTo (finite : (sampling.high - sampling.low).isFinite) :
    RoundsTo sampling.uniformStep
      (nearest (toRat sampling.high - toRat sampling.low) / sampling.resolution.toNat) := by
  have intervals := h.positive
  obtain ⟨resolution, value⟩ := h.toRat_resolution
  have divided := div_roundsTo finite resolution (by rw [value]; positivity)
  rw [value, h.toRat_width finite] at divided
  unfold uniformStep
  rwa [if_pos finite]

/-- If the width overflows, both ends are divided before they are subtracted. -/
theorem step_roundsTo_of_overflow (wide : ¬ (sampling.high - sampling.low).isFinite) :
    RoundsTo sampling.uniformStep
      (nearest (toRat sampling.high / sampling.resolution.toNat) -
        nearest (toRat sampling.low / sampling.resolution.toNat)) := by
  obtain ⟨finiteHigh, high⟩ := h.toRat_div_resolution h.high
  obtain ⟨finiteLow, low⟩ := h.toRat_div_resolution h.low
  have difference := sub_roundsTo finiteHigh finiteLow
  rw [high, low] at difference
  unfold uniformStep
  rwa [if_neg wide]

/-- The step before it is rounded is nearly the width divided by the number of intervals. -/
theorem exists_step : ∃ r, 0 ≤ r ∧ RoundsTo sampling.uniformStep r ∧
    (1 - 2 ^ (-53 : Int)) * r ≤ (toRat sampling.high - toRat sampling.low) /
      sampling.resolution.toNat + 2 * 2 ^ (-1075 : Int) := by
  have intervals := h.intervals.1
  have positive : (0 : ℚ) ≤ sampling.resolution.toNat := by linarith
  by_cases finite : (sampling.high - sampling.low).isFinite
  · have ordered := sub_nonneg.2 h.ordered.le
    refine ⟨_, div_nonneg (nearest_nonneg ordered) positive, h.step_roundsTo finite, ?_⟩
    have error : (2 : ℚ) ^ (-1075 : Int) / sampling.resolution.toNat ≤ 2 * 2 ^ (-1075 : Int) :=
      (div_le_self (by positivity) intervals).trans
        (le_mul_of_one_le_left (by positivity) one_le_two)
    rw [← mul_div_assoc]
    refine (div_le_div_of_nonneg_right (nearest_le ordered) positive).trans ?_
    rw [add_div]
    gcongr
  · obtain ⟨low, high⟩ := h.ends_of_overflow finite
    have above : 0 ≤ toRat sampling.high / sampling.resolution.toNat := div_nonneg high positive
    have below : 0 ≤ -(toRat sampling.low / sampling.resolution.toNat) := by
      rw [← neg_div]
      exact div_nonneg (neg_nonneg.2 low) positive
    have highPart := nearest_le above
    have lowPart := nearest_le below
    have lowSign := nearest_nonneg below
    rw [nearest_neg] at lowPart lowSign
    refine ⟨_, ?_, h.step_roundsTo_of_overflow finite, ?_⟩
    · have := nearest_nonneg above
      linarith
    · rw [sub_div]
      linarith

/-! ### Offsets -/

theorem offset_roundsTo {i : Nat} (hi : i < sampling.resolution.toNat)
    (finite : sampling.uniformStep.isFinite) :
    RoundsTo (sampling.offset i) (i * toRat sampling.uniformStep) := by
  obtain ⟨index, value⟩ := h.toRat_index hi
  rw [← value]
  exact mul_roundsTo index finite

theorem toRat_step_nonneg (finite : sampling.uniformStep.isFinite) :
    0 ≤ toRat sampling.uniformStep := by
  obtain ⟨r, positive, rounded, -⟩ := h.exists_step
  rw [rounded.toRat_eq finite]
  exact nearest_nonneg positive

/-- All steps together exceed the width by a few roundings at most. -/
theorem steps_le_width (finite : sampling.uniformStep.isFinite)
    (normal : 2 ^ (-1022 : Int) ≤ toRat sampling.uniformStep) :
    (1 - 5 * 2 ^ (-53 : Int)) * (sampling.resolution.toNat * toRat sampling.uniformStep) ≤
      toRat sampling.high - toRat sampling.low := by
  obtain ⟨r, positive, rounded, exact⟩ := h.exists_step
  have step := nearest_le positive
  rw [← rounded.toRat_eq finite] at step
  refine steps_le (by positivity) (by norm_num) (by positivity) (by exact_mod_cast h.positive)
    (h.toRat_step_nonneg finite) exact step (leastError_le normal)

theorem cast_pred_resolution :
    ((sampling.resolution.toNat - 1 : Nat) : ℚ) = sampling.resolution.toNat - 1 :=
  Nat.cast_pred h.positive

theorem lastOffset_roundsTo (finite : sampling.uniformStep.isFinite) :
    RoundsTo sampling.lastOffset
      ((sampling.resolution.toNat - 1) * toRat sampling.uniformStep) := by
  rw [← h.cast_pred_resolution]
  exact h.offset_roundsTo (Nat.sub_lt h.positive one_pos) finite

/-- The roundings do not make up for the missing interval. -/
theorem lastOffset_le_width (finite : sampling.uniformStep.isFinite)
    (normal : 2 ^ (-1022 : Int) ≤ toRat sampling.uniformStep) :
    nearest ((sampling.resolution.toNat - 1) * toRat sampling.uniformStep) ≤
      toRat sampling.high - toRat sampling.low := by
  have positive := h.toRat_step_nonneg finite
  obtain ⟨intervals, few⟩ := h.intervals
  refine lastOffset_le (by positivity) positive ?_ intervals (h.steps_le_width finite normal)
    (nearest_le (mul_nonneg (by linarith) positive)) (leastError_le normal)
  norm_num
  linarith

/-- The last offset is finite if the width is. -/
theorem isFinite_lastOffset (finite : (sampling.high - sampling.low).isFinite) :
    sampling.lastOffset.isFinite := by
  have step : sampling.uniformStep.isFinite := by
    unfold uniformStep
    rw [if_pos finite]
    exact (h.toRat_div_resolution finite).1
  have positive := h.toRat_step_nonneg step
  obtain ⟨intervals, few⟩ := h.intervals
  have last : 0 ≤ ((sampling.resolution.toNat : ℚ) - 1) * toRat sampling.uniformStep :=
    mul_nonneg (by linarith) positive
  refine ((h.lastOffset_roundsTo step).inside ?_).1
  rw [abs_of_nonneg (nearest_nonneg last)]
  -- A normal step has a bounded relative error; with a smaller one the offset is far from overflow.
  rcases le_or_gt (2 ^ (-1022 : Int)) (toRat sampling.uniformStep) with normal | small
  · have steps := h.steps_le_width step normal
    have : (sampling.resolution.toNat - 1) * toRat sampling.uniformStep ≤
        (1 - 5 * 2 ^ (-53 : Int)) * (sampling.resolution.toNat * toRat sampling.uniformStep) := by
      rw [← mul_assoc]
      gcongr
      norm_num
      linarith
    have := nearest_mono (this.trans steps)
    rw [← h.toRat_width finite] at this
    exact this.trans_lt (abs_lt.1 (abs_toRat_lt _)).2
  · have less : (sampling.resolution.toNat - 1) * toRat sampling.uniformStep ≤
        (sampling.resolution.toNat : ℚ) * 1 := by
      have : (2 : ℚ) ^ (-1022 : Int) ≤ 1 := zpow_le_one_of_nonpos₀ one_le_two (by norm_num)
      gcongr
      · linarith
      · linarith
    have representable : sampling.resolution.toNat < 2 ^ 53 := by have := h.bounded; omega
    have := nearest_mono less
    rw [mul_one, nearest_natCast representable] at this
    exact this.trans_lt (natCast_lt_overflow representable)

/-! ### Values -/

section Values
variable {i j : Nat}

/-- Offsets are in order, so all are finite if the last one is. -/
theorem toRat_offset (last : sampling.lastOffset.isFinite) (hi : i < sampling.resolution.toNat) :
    (sampling.offset i).isFinite ∧
      toRat (sampling.offset i) = nearest (i * toRat sampling.uniformStep) := by
  have finite : sampling.uniformStep.isFinite := (isFinite_of_mul last).2
  have positive := h.toRat_step_nonneg finite
  have rounded := h.offset_roundsTo hi finite
  refine rounded.inside ?_
  rw [abs_of_nonneg (nearest_nonneg (by positivity))]
  have index : (i : ℚ) ≤ sampling.resolution.toNat - 1 := by
    rw [← h.cast_pred_resolution]
    exact_mod_cast Nat.le_pred_of_lt hi
  have := nearest_mono (mul_le_mul_of_nonneg_right index positive)
  rw [← (h.lastOffset_roundsTo finite).toRat_eq last] at this
  exact this.trans_lt (abs_lt.1 (abs_toRat_lt _)).2

theorem toRat_offset_mono (last : sampling.lastOffset.isFinite) (hij : i ≤ j)
    (hj : j < sampling.resolution.toNat) :
    toRat (sampling.offset i) ≤ toRat (sampling.offset j) := by
  have positive := h.toRat_step_nonneg (isFinite_of_mul last).2
  rw [(h.toRat_offset last (hij.trans_lt hj)).2, (h.toRat_offset last hj).2]
  apply nearest_mono
  gcongr

/-- Values are where they should be if the last one before the upper end is. -/
theorem toRat_value (last : sampling.lastOffset.isFinite)
    (below : nearest (toRat sampling.low + toRat sampling.lastOffset) ≤ toRat sampling.high)
    (hi : i < sampling.resolution.toNat) :
    (sampling.low + sampling.offset i).isFinite ∧
      toRat sampling.low ≤ toRat (sampling.low + sampling.offset i) ∧
      toRat (sampling.low + sampling.offset i) ≤ toRat sampling.high := by
  obtain ⟨finite, value⟩ := h.toRat_offset last hi
  have positive := h.toRat_step_nonneg (isFinite_of_mul last).2
  have rounded := add_roundsTo h.low finite
  have low : toRat sampling.low ≤ nearest (toRat sampling.low + toRat (sampling.offset i)) := by
    have offset : 0 ≤ toRat (sampling.offset i) := by
      rw [value]
      exact nearest_nonneg (by positivity)
    have := nearest_mono (le_add_of_nonneg_right (a := toRat sampling.low) offset)
    rwa [nearest_toRat h.low] at this
  have high : nearest (toRat sampling.low + toRat (sampling.offset i)) ≤ toRat sampling.high := by
    refine (nearest_mono ?_).trans below
    have := h.toRat_offset_mono last (Nat.le_pred_of_lt hi) (Nat.sub_lt h.positive one_pos)
    gcongr
    exact this
  have inside := rounded.isFinite_of_between low high
  rw [rounded.toRat_eq inside]
  exact ⟨inside, low, high⟩

/-- Values do not decrease if the last one is inside. -/
theorem value_mono (last : sampling.lastOffset.isFinite)
    (below : nearest (toRat sampling.low + toRat sampling.lastOffset) ≤ toRat sampling.high)
    (hij : i ≤ j) (hj : j ≤ sampling.resolution.toNat) :
    sampling.uniformValue i ≤ sampling.uniformValue j := by
  rcases hj.eq_or_lt with rfl | hj
  · rw [uniformValue_last]
    rcases hij.eq_or_lt with rfl | hi
    · rw [uniformValue_last, le_iff_toRat h.high h.high]
    · obtain ⟨finite, -, high⟩ := h.toRat_value last below hi
      rwa [uniformValue_of_lt hi, le_iff_toRat finite h.high]
  · have hi := hij.trans_lt hj
    have finiteI := (h.toRat_value last below hi).1
    have finiteJ := (h.toRat_value last below hj).1
    rw [uniformValue_of_lt hi, uniformValue_of_lt hj, le_iff_toRat finiteI finiteJ,
      (add_roundsTo h.low (h.toRat_offset last hi).1).toRat_eq finiteI,
      (add_roundsTo h.low (h.toRat_offset last hj).1).toRat_eq finiteJ]
    apply nearest_mono
    have := h.toRat_offset_mono last hij hj
    gcongr

end Values

end HasUniformGrid

/-! ## Grids -/

section Grid
variable {sampling : Sampling}

theorem mem_values {x : Float} {n : Nat} :
    x ∈ (List.range (n + 1)).map sampling.uniformValue ↔
      ∃ i ≤ n, sampling.uniformValue i = x := by
  simp

/-- The grid fills the window if its last value before the upper end is where it should be. -/
theorem HasUniformGrid.fills (h : HasUniformGrid sampling) (last : sampling.lastOffset.isFinite)
    (below : nearest (toRat sampling.low + toRat sampling.lastOffset) ≤ toRat sampling.high) :
    Fills sampling ((List.range (sampling.resolution.toNat + 1)).map sampling.uniformValue) := by
  have values {i : Nat} (hi : i ≤ sampling.resolution.toNat) :
      (sampling.uniformValue i).isFinite ∧ sampling.low ≤ sampling.uniformValue i ∧
        sampling.uniformValue i ≤ sampling.high := by
    rcases hi.eq_or_lt with rfl | hi
    · rw [uniformValue_last, le_iff_toRat h.low h.high, le_iff_toRat h.high h.high]
      exact ⟨h.high, h.ordered.le, le_rfl⟩
    · obtain ⟨finite, inside⟩ := h.toRat_value last below hi
      rw [uniformValue_of_lt hi, le_iff_toRat h.low finite, le_iff_toRat finite h.high]
      exact ⟨finite, inside⟩
  refine ⟨?_, ?_, ?_, ?_⟩
  · obtain ⟨finite, value⟩ := h.toRat_offset last h.positive
    have start := (h.toRat_value last below h.positive).1
    rw [Nat.cast_zero, zero_mul, nearest_zero] at value
    rw [List.range_succ_eq_map, List.map_cons, List.head?_cons, Option.any_some,
      uniformValue_of_lt h.positive, beq_iff_toRat start h.low,
      (add_roundsTo h.low finite).toRat_eq start, value, add_zero, nearest_toRat h.low]
  · intro x hx
    obtain ⟨i, hi, rfl⟩ := mem_values.1 hx
    exact (values hi).1
  · intro x hx
    obtain ⟨i, hi, rfl⟩ := mem_values.1 hx
    exact (values hi).2
  · rw [List.pairwise_map]
    refine List.pairwise_lt_range.imp_of_mem fun _ hj hij => ?_
    exact h.value_mono last below hij.le (Nat.lt_succ_iff.1 (List.mem_range.1 hj))

/-- The grid fills the window exactly if its last value before the upper end is finite and inside.
-/
theorem fills_iff (h : HasUniformGrid sampling) :
    Fills sampling ((List.range (sampling.resolution.toNat + 1)).map sampling.uniformValue) ↔
      sampling.lastOffset.isFinite ∧ sampling.low + sampling.lastOffset ≤ sampling.high := by
  constructor
  · intro fills
    have mem : sampling.low + sampling.lastOffset ∈
        (List.range (sampling.resolution.toNat + 1)).map sampling.uniformValue :=
      mem_values.2 ⟨_, Nat.sub_le .., uniformValue_of_lt (Nat.sub_lt h.positive one_pos)⟩
    exact ⟨(isFinite_of_add (fills.finite _ mem)).2, (fills.inside _ mem).2⟩
  · rintro ⟨last, below⟩
    exact h.fills last (((add_roundsTo h.low last).le_iff h.high).1 below)

/-- Rounding cannot carry the last value beyond the upper end unless the step is subnormal. -/
theorem lastValue_le_of_normal (h : HasUniformGrid sampling) (last : sampling.lastOffset.isFinite)
    (normal : ¬ sampling.uniformStep < leastNormal) :
    sampling.low + sampling.lastOffset ≤ sampling.high := by
  have step : sampling.uniformStep.isFinite := (isFinite_of_mul last).2
  rw [lt_iff_toRat step toRat_leastNormal.1, not_lt, toRat_leastNormal.2] at normal
  have width := h.lastOffset_le_width step normal
  rw [← (h.lastOffset_roundsTo step).toRat_eq last] at width
  rw [(add_roundsTo h.low last).le_iff h.high, ← nearest_toRat h.high]
  apply nearest_mono
  linarith

/-- A uniform grid has a value more than intervals and ends at the upper end of the window. It
fills the window, except that the last offset may overflow if the width does, and that the last
value before the upper end may exceed it if the step is less than the least normal double. -/
theorem grid_fills_iff (ok : sampling.check = .ok ()) (uniform : sampling.spacing = .uniform)
    (few : sampling.resolution.toNat < maxGridSize) :
    ∃ xs, sampling.grid = .ok xs ∧ xs.length = sampling.resolution.toNat + 1 ∧
      xs.getLast? = some sampling.high ∧
      (Fills sampling xs ↔
        ((sampling.high - sampling.low).isFinite = false → sampling.lastOffset.isFinite) ∧
        (sampling.uniformStep < leastNormal →
          sampling.low + sampling.lastOffset ≤ sampling.high)) := by
  have h := hasUniformGrid ok few
  refine ⟨(List.range (sampling.resolution.toNat + 1)).map sampling.uniformValue, ?_, ?_, ?_, ?_⟩
  · rw [grid, ok, uniform]
    exact if_neg few.not_ge
  · rw [List.length_map, List.length_range]
  · rw [List.range_succ, List.map_append, List.map_singleton, List.getLast?_concat,
      uniformValue_last]
  · rw [fills_iff h]
    constructor
    · rintro ⟨last, below⟩
      exact ⟨fun _ => last, fun _ => below⟩
    · rintro ⟨wide, narrow⟩
      have last : sampling.lastOffset.isFinite := by
        cases finite : (sampling.high - sampling.low).isFinite with
        | true => exact h.isFinite_lastOffset finite
        | false => exact wide finite
      exact ⟨last, (em _).elim narrow (lastValue_le_of_normal h last)⟩

end Grid

def quarters : Sampling := { low := 0.0, high := 1.0, resolution := 4 }

theorem grid_fills_iff_quarters : ∃ xs, quarters.grid = .ok xs ∧ xs.length = 5 ∧
    xs.getLast? = some quarters.high ∧ Fills quarters xs := by
  have ok : quarters.check = .ok () := by decide +kernel
  obtain ⟨xs, grid, length, last, fills⟩ := grid_fills_iff ok rfl (by decide)
  refine ⟨xs, grid, length, last, fills.2 ⟨?_, ?_⟩⟩
  · intro wide
    exact absurd wide (by decide +kernel)
  · intro narrow
    exact absurd narrow (by decide +kernel)

def widest : Sampling :=
  { low := .ofBits 0xffefffffffffffff, high := .ofBits 0x7fefffffffffffff, resolution := 1 }

/-- The step of the widest window overflows, and its product with the index 0 is NaN. -/
theorem widest_not_filled : widest.check = .ok () ∧ widest.spacing = .uniform ∧
    widest.resolution.toNat < maxGridSize ∧ ¬ ∃ xs, widest.grid = .ok xs ∧ Fills widest xs := by
  refine ⟨by decide +kernel, rfl, by decide, ?_⟩
  rintro ⟨xs, grid, fills⟩
  have h : HasUniformGrid widest := hasUniformGrid (by decide +kernel) (by decide)
  have values : widest.grid =
      .ok ((List.range (widest.resolution.toNat + 1)).map widest.uniformValue) := by
    decide +kernel
  obtain rfl := Except.ok.inj (values.symm.trans grid)
  have finite := ((fills_iff h).1 fills).1
  exact absurd finite (by decide +kernel)

/-- A sampling of a window that is three of the least doubles wide. -/
def narrowest : Sampling := { low := 0.0, high := .ofBits 3, resolution := 5 }

example : ¬ narrowest.low + narrowest.lastOffset ≤ narrowest.high := by decide +kernel

end Curves.Sampling

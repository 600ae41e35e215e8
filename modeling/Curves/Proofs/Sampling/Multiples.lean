import Curves.Proofs.Number.Infinity
import Curves.Proofs.Number.Integral
import Curves.Proofs.Sampling.UniformGrid

/-!
# Multiples of the step

A grid of multiples of `π / resolution` is generated from the rounded quotients of the ends of its
window and the step. The multiples that lie in the window are always finite and in order, whatever
their indices are rounded to. Less than `2 ^ 52` steps away from zero the indices are exact and
neighbours are told apart.

Main statements:

* `HasIndices.multipleCount_eq`: the indices that are generated;
* `Keeps.between`, `Keeps.mono`: what is kept, and in which order;
* `separates_of_near`: where neighbours differ.
-/

namespace Curves.Sampling
open Number

section Generation
variable (sampling : Sampling)

def piStep : Float := pi / sampling.resolution.toFloat

def piFirst : Float := ceiling (sampling.low / sampling.piStep)

def piLast : Float := floor (sampling.high / sampling.piStep)

/-- The number of multiples as it is compared with the limit. -/
def piCount : Float := sampling.piLast - sampling.piFirst + 1.0

def multipleCount : Nat := if sampling.piCount ≥ 1.0 then sampling.piCount.toUInt64.toNat else 0

def multiple (k : Nat) : Float := (sampling.piFirst + k.toUInt64.toFloat) * sampling.piStep

/-- The multiples that are kept. -/
def multiplesInside : List Float :=
  ((List.range sampling.multipleCount).map sampling.multiple).filter
    fun x => x ≥ sampling.low && x ≤ sampling.high

/-- A grid of multiples is refused for its window, or for its number of multiples, or is given with
its ends. -/
theorem piGrid_eq : sampling.piGrid =
    if sampling.high - sampling.low < gridTolerance then
      .error (.invalidWindow sampling.low sampling.high)
    else if sampling.piCount > maxGridSize.toUInt64.toFloat then .error .tooManySamples
    else .ok (sampling.withEnds sampling.multiplesInside) := by
  have range : (if sampling.piCount ≥ 1.0 then List.range sampling.piCount.toUInt64.toNat else []) =
      List.range sampling.multipleCount := by
    unfold multipleCount
    split <;> rfl
  unfold multiplesInside
  rw [← range]
  rfl

end Generation

variable {sampling : Sampling}

/-! ## Counts -/

section Counts

theorem le_nearest_succ_iff {d n : Int} (small : |n| ≤ 2 ^ 52) :
    n ≤ nearest (nearest d + 1) ↔ n ≤ d + 1 := by
  have bounds := abs_le.1 small
  constructor
  · contrapose!
    intro less
    have step : nearest d ≤ (n - 2 : Int) :=
      nearest_le_intCast (abs_le.2 ⟨by omega, by omega⟩) (by exact_mod_cast (by omega : d ≤ n - 2))
    have : nearest (nearest d + 1) ≤ (n - 1 : Int) := by
      refine nearest_le_intCast (abs_le.2 ⟨by omega, by omega⟩) ?_
      push_cast at step ⊢
      linarith
    push_cast at this
    linarith
  · intro le
    have step : ((n - 1 : Int) : ℚ) ≤ nearest d :=
      intCast_le_nearest (abs_le.2 ⟨by omega, by omega⟩) (by exact_mod_cast (by omega : n - 1 ≤ d))
    refine intCast_le_nearest (small.trans (by norm_num)) ?_
    push_cast at step
    linarith

theorem nearest_succ_le_iff {d n : Int} (small : |n| ≤ 2 ^ 52) :
    nearest (nearest d + 1) ≤ n ↔ d + 1 ≤ n := by
  have bounds := abs_le.1 small
  constructor
  · contrapose!
    intro less
    have step : (n : ℚ) ≤ nearest d :=
      intCast_le_nearest (small.trans (by norm_num)) (by exact_mod_cast (by omega : n ≤ d))
    have : ((n + 1 : Int) : ℚ) ≤ nearest (nearest d + 1) := by
      refine intCast_le_nearest (abs_le.2 ⟨by omega, by omega⟩) ?_
      push_cast
      linarith
    push_cast at this
    linarith
  · intro le
    have step : nearest d ≤ (n - 1 : Int) :=
      nearest_le_intCast (abs_le.2 ⟨by omega, by omega⟩) (by exact_mod_cast (by omega : d ≤ n - 1))
    refine nearest_le_intCast (small.trans (by norm_num)) ?_
    push_cast at step
    linarith

theorem toRat_maxGridSize : maxGridSize.toUInt64.toFloat.isFinite ∧
    toRat maxGridSize.toUInt64.toFloat = (maxGridSize : Int) :=
  toRat_toFloat (n := maxGridSize.toUInt64) (by decide)

/-- The first and the last index of the multiples that are generated. -/
structure HasIndices (sampling : Sampling) (first last : Int) : Prop where
  finiteFirst : sampling.piFirst.isFinite
  toRat_first : toRat sampling.piFirst = first
  finiteLast : sampling.piLast.isFinite
  toRat_last : toRat sampling.piLast = last

/-- If the count is finite, the indices are integers. -/
theorem exists_hasIndices (finite : sampling.piCount.isFinite) :
    ∃ first last, HasIndices sampling first last := by
  obtain ⟨last, first⟩ := isFinite_of_sub (isFinite_of_add finite).1
  exact ⟨_, _, first, (toRat_ceiling (isFinite_of_toIntegral first)).2, last,
    (toRat_floor (isFinite_of_toIntegral last)).2⟩

namespace HasIndices
variable {first last : Int} (h : HasIndices sampling first last)
include h

theorem toRat_piCount (finite : sampling.piCount.isFinite) :
    toRat sampling.piCount = nearest (nearest (last - first : Int) + 1) := by
  have difference := (isFinite_of_add finite).1
  rw [piCount] at finite
  rw [piCount, (add_roundsTo difference toRat_one.1).toRat_eq finite, toRat_one.2,
    (sub_roundsTo h.finiteLast h.finiteFirst).toRat_eq difference, h.toRat_last, h.toRat_first,
    Int.cast_sub]

theorem one_le_piCount_iff (finite : sampling.piCount.isFinite) :
    sampling.piCount ≥ 1.0 ↔ 1 ≤ last - first + 1 := by
  have := le_nearest_succ_iff (d := last - first) (n := 1) (by norm_num)
  rw [Int.cast_one] at this
  rw [ge_iff_le, le_iff_toRat toRat_one.1 finite, toRat_one.2, h.toRat_piCount finite, this]

/-- The limit is exceeded exactly if there are more indices than it, even where their number is
rounded or overflows. -/
theorem piCount_gt_iff :
    sampling.piCount > maxGridSize.toUInt64.toFloat ↔ (maxGridSize : Int) < last - first + 1 := by
  have difference := sub_roundsTo h.finiteLast h.finiteFirst
  rw [h.toRat_last, h.toRat_first, ← Int.cast_sub] at difference
  have bound : toRat maxGridSize.toUInt64.toFloat = (maxGridSize : Int) := toRat_maxGridSize.2
  rcases difference.finite_or_infinity with ⟨finite, -⟩ | ⟨s, infinite, far⟩
  · have count := add_roundsTo finite toRat_one.1
    have few := nearest_succ_le_iff (d := last - first) (n := maxGridSize) (by decide)
    have order := le_iff_not_gt (a := sampling.piCount)
      (isNaN_eq_false_of_isFinite toRat_maxGridSize.1)
    rw [difference.toRat_eq finite, toRat_one.2] at count
    rw [piCount, count.le_iff toRat_maxGridSize.1, bound, few,
      and_iff_right count.isNaN_eq_false] at order
    rw [← not_le, order, not_not]
    rfl
  · -- an infinite difference is out of all proportion to the limit
    have count : sampling.piCount.toModel.unpack = .infinity s := add_infinity infinite toRat_one.1
    have large := natCast_lt_overflow (n := maxGridSize) (by decide)
    cases s with
    | positive =>
      refine iff_of_true (gt_of_infinity count toRat_maxGridSize.1) ?_
      by_contra! few
      have near : nearest (last - first : Int) ≤ (maxGridSize : Int) :=
        nearest_le_intCast (by decide) (by exact_mod_cast (by omega : last - first ≤ maxGridSize))
      rw [signFactor, one_mul] at far
      rw [Int.cast_natCast] at near
      linarith
    | negative =>
      refine iff_of_false (not_lt_infinity count) ?_
      intro many
      have near : (maxGridSize : Int) ≤ nearest (last - first : Int) :=
        intCast_le_nearest (by decide) (by exact_mod_cast (by omega : maxGridSize ≤ last - first))
      rw [signFactor, neg_one_mul] at far
      rw [Int.cast_natCast] at near
      have := Nat.cast_nonneg (α := ℚ) maxGridSize
      linarith

/-- The indices from the first to the last are generated. -/
theorem multipleCount_eq (finite : sampling.piCount.isFinite)
    (few : ¬ sampling.piCount > maxGridSize.toUInt64.toFloat) :
    sampling.multipleCount = (last - first + 1).toNat := by
  have most := mt h.piCount_gt_iff.2 few
  unfold multipleCount
  split_ifs with some <;> rw [h.one_le_piCount_iff finite] at some
  · have bound : maxGridSize = 2 ^ 24 := rfl
    obtain ⟨n, hn⟩ := Int.eq_ofNat_of_zero_le (by omega : 0 ≤ last - first + 1)
    have small : |(n : Int)| ≤ 2 ^ 52 := by
      rw [Nat.abs_cast]
      omega
    have value : toRat sampling.piCount = n := by
      rw [h.toRat_piCount finite]
      exact_mod_cast le_antisymm ((nearest_succ_le_iff small).2 hn.le)
        ((le_nearest_succ_iff small).2 hn.ge)
    rw [toNat_toUInt64 finite value (by omega), hn, Int.toNat_natCast]
  · omega

end HasIndices

theorem isFinite_piCount (few : ¬ sampling.piCount > maxGridSize.toUInt64.toFloat)
    (some : 0 < sampling.multipleCount) : sampling.piCount.isFinite := by
  unfold multipleCount at some
  split_ifs at some with positive
  · exact isFinite_of_between toRat_one.1 toRat_maxGridSize.1 positive few
  · omega

/-- No more multiples are generated than the limit allows. -/
theorem multipleCount_le (few : ¬ sampling.piCount > maxGridSize.toUInt64.toFloat) :
    sampling.multipleCount ≤ maxGridSize := by
  rcases Nat.eq_zero_or_pos sampling.multipleCount with none | some
  · omega
  · have finite := isFinite_piCount few some
    obtain ⟨first, last, h⟩ := exists_hasIndices finite
    have := mt h.piCount_gt_iff.2 few
    rw [h.multipleCount_eq finite few]
    omega

end Counts

/-! ## Steps -/

theorem toRat_pi : pi.isFinite ∧ 2 ≤ toRat pi ∧ toRat pi ≤ 4 := by
  have unpacked : pi.toModel.unpack = .finite .positive 7074237752028440 (-51) (by decide) := by rfl
  obtain ⟨finite, value⟩ := toRat_of_unpack unpacked
  rw [value, signFactor]
  exact ⟨finite, by norm_num⟩

theorem HasWindow.toRat_step (h : HasWindow sampling) :
    sampling.piStep.isFinite ∧ 2 ^ (-63 : Int) ≤ toRat sampling.piStep := by
  have positive : (1 : ℚ) ≤ sampling.resolution.toNat := by exact_mod_cast h.positive
  have most : (sampling.resolution.toNat : ℚ) ≤ 2 ^ (64 : Int) := by
    exact_mod_cast sampling.resolution.toNat_lt.le
  obtain ⟨finite, value⟩ := (toFloat_roundsTo sampling.resolution).inside_of_abs_le
    (by rwa [Nat.abs_cast]) (by norm_num) (by norm_num)
  have low := nearest_mono positive
  have high := nearest_mono most
  rw [← value, nearest_zpow (by norm_num)] at high
  rw [← value, show (1 : ℚ) = (1 : Int) from rfl, nearest_intCast (by norm_num), Int.cast_one]
    at low
  obtain ⟨finitePi, lowPi, highPi⟩ := toRat_pi
  have quotient : 2 ^ (-63 : Int) ≤ toRat pi / toRat sampling.resolution.toFloat := by
    rw [le_div_iff₀ (by linarith)]
    calc (2 : ℚ) ^ (-63 : Int) * toRat sampling.resolution.toFloat
        ≤ 2 ^ (-63 : Int) * 2 ^ (64 : Int) := by gcongr
      _ ≤ toRat pi := le_trans (by norm_num) lowPi
  have small : |toRat pi / toRat sampling.resolution.toFloat| ≤ 2 ^ (2 : Int) := by
    rw [abs_of_nonneg (le_trans (by positivity) quotient)]
    exact (div_le_self (by linarith) low).trans (highPi.trans (by norm_num))
  obtain ⟨finiteStep, step⟩ := (div_roundsTo finitePi finite (by linarith)).inside_of_abs_le small
    (by norm_num) (by norm_num)
  have := nearest_mono quotient
  rw [nearest_zpow (by norm_num)] at this
  exact ⟨finiteStep, step ▸ this⟩

theorem HasWindow.step_pos (h : HasWindow sampling) : 0 < toRat sampling.piStep :=
  lt_of_lt_of_le (by positivity) h.toRat_step.2

/-! ## Multiples -/

def multipleValue (sampling : Sampling) (k : Nat) : ℚ :=
  nearest (nearest (toRat sampling.piFirst + k) * toRat sampling.piStep)

section Multiples
variable {i j k : Nat}

/-- Multiples do not decrease. -/
theorem multipleValue_mono (h : HasWindow sampling) (hij : i ≤ j) :
    sampling.multipleValue i ≤ sampling.multipleValue j := by
  have : (i : ℚ) ≤ j := by exact_mod_cast hij
  have index := nearest_mono (add_le_add_right this (toRat sampling.piFirst))
  exact nearest_mono (mul_le_mul_of_nonneg_right index h.step_pos.le)

theorem index_roundsTo (hk : k < 2 ^ 53) (finite : sampling.piFirst.isFinite) :
    RoundsTo (sampling.piFirst + k.toUInt64.toFloat) (toRat sampling.piFirst + k) := by
  obtain ⟨finiteIndex, value⟩ := toRat_natCast hk
  rw [← value]
  exact add_roundsTo finite finiteIndex

/-- A finite multiple is its rounded index times the step, rounded. -/
theorem toRat_multiple (hk : k < 2 ^ 53) (finite : (sampling.multiple k).isFinite) :
    toRat (sampling.multiple k) = sampling.multipleValue k := by
  obtain ⟨index, step⟩ := isFinite_of_mul finite
  rw [multipleValue, ← (index_roundsTo hk (isFinite_of_add index).1).toRat_eq index]
  exact (mul_roundsTo index step).toRat_eq finite

/-- Multiples between finite ones are finite. -/
theorem isFinite_multiple (h : HasWindow sampling) (hik : i ≤ k) (hkj : k ≤ j) (hj : j < 2 ^ 53)
    (finiteLow : (sampling.multiple i).isFinite) (finiteHigh : (sampling.multiple j).isFinite) :
    (sampling.multiple k).isFinite := by
  obtain ⟨lowIndex, step⟩ := isFinite_of_mul finiteLow
  obtain ⟨highIndex, -⟩ := isFinite_of_mul finiteHigh
  have first := (isFinite_of_add lowIndex).1
  have hk : k < 2 ^ 53 := by omega
  have rounded := index_roundsTo hk first
  have mono {m n : Nat} (hmn : m ≤ n) :
      nearest (toRat sampling.piFirst + m) ≤ nearest (toRat sampling.piFirst + n) := by
    have : (m : ℚ) ≤ n := by exact_mod_cast hmn
    exact nearest_mono (add_le_add_right this _)
  have index : (sampling.piFirst + k.toUInt64.toFloat).isFinite := by
    refine rounded.isFinite_of_between (x := sampling.piFirst + i.toUInt64.toFloat)
      (y := sampling.piFirst + j.toUInt64.toFloat) ?_ ?_
    · rw [(index_roundsTo (by omega) first).toRat_eq lowIndex]
      exact mono hik
    · rw [(index_roundsTo hj first).toRat_eq highIndex]
      exact mono hkj
  have product := mul_roundsTo index step
  rw [rounded.toRat_eq index] at product
  refine product.isFinite_of_between (x := sampling.multiple i) (y := sampling.multiple j) ?_ ?_
  · rw [toRat_multiple (by omega) finiteLow]
    exact multipleValue_mono h hik
  · rw [toRat_multiple hj finiteHigh]
    exact multipleValue_mono h hkj

/-- Whether the multiple `k` steps behind the first one is kept. -/
structure Keeps (sampling : Sampling) (k : Nat) : Prop where
  index : k < sampling.multipleCount
  low : sampling.low ≤ sampling.multiple k
  high : sampling.multiple k ≤ sampling.high

def Separates (sampling : Sampling) : Prop :=
  ∀ k, sampling.Keeps k → sampling.Keeps (k + 1) → sampling.multiple k < sampling.multiple (k + 1)

/-- The multiples inside are those that are kept. -/
theorem mem_multiplesInside {x : Float} :
    x ∈ sampling.multiplesInside ↔ ∃ k, sampling.Keeps k ∧ sampling.multiple k = x := by
  simp only [multiplesInside, List.mem_filter, List.mem_map, List.mem_range, Bool.and_eq_true,
    decide_eq_true_eq, ge_iff_le]
  constructor
  · rintro ⟨⟨k, hk, rfl⟩, low, high⟩
    exact ⟨k, ⟨hk, low, high⟩, rfl⟩
  · rintro ⟨k, ⟨hk, low, high⟩, rfl⟩
    exact ⟨⟨k, hk, rfl⟩, low, high⟩

/-- A relation holds along the grid if it holds of kept multiples in order. -/
theorem multiplesInside_pairwise_iff {R : Float → Float → Prop} :
    sampling.multiplesInside.Pairwise R ↔ ∀ i j, i < j → sampling.Keeps i → sampling.Keeps j →
      R (sampling.multiple i) (sampling.multiple j) := by
  rw [multiplesInside, List.pairwise_filter, List.pairwise_map, List.pairwise_iff_getElem]
  simp only [List.length_range, List.getElem_range, Bool.and_eq_true, decide_eq_true_eq, ge_iff_le]
  constructor
  · intro all i j hij hi hj
    exact all i j hi.index hj.index hij ⟨hi.low, hi.high⟩ ⟨hj.low, hj.high⟩
  · intro all i j hi hj hij inI inJ
    exact all i j hij ⟨hi, inI.1, inI.2⟩ ⟨hj, inJ.1, inJ.2⟩

theorem length_multiplesInside_le (sampling : Sampling) :
    sampling.multiplesInside.length ≤ sampling.multipleCount := by
  refine (List.length_filter_le ..).trans ?_
  rw [List.length_map, List.length_range]

namespace Keeps

theorem isFinite (h : HasWindow sampling) (hk : sampling.Keeps k) :
    (sampling.multiple k).isFinite :=
  isFinite_of_between h.low h.high hk.low
    ((le_iff_not_gt (isNaN_eq_false_of_isFinite h.high)).1 hk.high).2

theorem bound (few : ¬ sampling.piCount > maxGridSize.toUInt64.toFloat) (hk : sampling.Keeps k) :
    k < 2 ^ 53 :=
  (hk.index.trans_le (multipleCount_le few)).trans (by decide)

/-- What lies between two kept multiples is kept. -/
theorem between (h : HasWindow sampling) (few : ¬ sampling.piCount > maxGridSize.toUInt64.toFloat)
    (hi : sampling.Keeps i) (hj : sampling.Keeps j) (hik : i ≤ k) (hkj : k ≤ j) :
    sampling.Keeps k := by
  have hj' := hj.bound few
  have finite := isFinite_multiple h hik hkj hj' (hi.isFinite h) (hj.isFinite h)
  have low := hi.low
  have high := hj.high
  rw [le_iff_toRat h.low (hi.isFinite h), toRat_multiple (by omega) (hi.isFinite h)] at low
  rw [le_iff_toRat (hj.isFinite h) h.high, toRat_multiple hj' (hj.isFinite h)] at high
  refine ⟨hkj.trans_lt hj.index, ?_, ?_⟩
  · rw [le_iff_toRat h.low finite, toRat_multiple (by omega) finite]
    exact low.trans (multipleValue_mono h hik)
  · rw [le_iff_toRat finite h.high, toRat_multiple (by omega) finite]
    exact (multipleValue_mono h hkj).trans high

theorem mono (h : HasWindow sampling) (few : ¬ sampling.piCount > maxGridSize.toUInt64.toFloat)
    (hi : sampling.Keeps i) (hj : sampling.Keeps j) (hij : i ≤ j) :
    toRat (sampling.multiple i) ≤ toRat (sampling.multiple j) := by
  rw [toRat_multiple (hi.bound few) (hi.isFinite h), toRat_multiple (hj.bound few) (hj.isFinite h)]
  exact multipleValue_mono h hij

end Keeps

/-- The multiples inside are strictly increasing exactly if neighbours differ. -/
theorem strict_iff_separates (h : HasWindow sampling)
    (few : ¬ sampling.piCount > maxGridSize.toUInt64.toFloat) :
    sampling.multiplesInside.Pairwise (toRat · < toRat ·) ↔ sampling.Separates := by
  rw [multiplesInside_pairwise_iff]
  constructor
  · intro strict k hk hk'
    rw [lt_iff_toRat (hk.isFinite h) (hk'.isFinite h)]
    exact strict k (k + 1) (Nat.lt_succ_self k) hk hk'
  · intro separates i j hij hi hj
    have next := hi.between h few hj (Nat.le_succ i) hij
    have less := separates i hi next
    rw [lt_iff_toRat (hi.isFinite h) (next.isFinite h)] at less
    exact less.trans_le (next.mono h few hj hij)

end Multiples

/-! ## Windows near zero -/

/-- Whether both ends of the window are less than `n` steps away from zero. -/
def IsNear (sampling : Sampling) (n : Nat) : Prop :=
  |toRat sampling.low| < n * toRat sampling.piStep ∧
    |toRat sampling.high| < n * toRat sampling.piStep

section Near

/-- An index whose multiple is near zero is exact. -/
theorem index_lt_of_near {n : Int} {step : Float} (finite : step.isFinite)
    (positive : 0 < toRat step)
    (near : |nearest (nearest n * toRat step)| < 2 ^ 52 * toRat step) : |n| < 2 ^ 52 := by
  by_contra! far
  refine near.not_ge ?_
  have index : 2 ^ 52 ≤ |nearest n| := by
    rw [← nearest_abs]
    have := intCast_le_nearest (q := |n|) (n := 2 ^ 52) (by norm_num) (by exact_mod_cast far)
    exact_mod_cast this
  rw [← nearest_abs, ← nearest_two_pow_mul finite 52]
  refine nearest_mono ?_
  rw [abs_mul, abs_of_pos positive]
  gcongr

/-- Kept multiples lie in the window, so if that is near zero their indices are exact. -/
theorem Keeps.index_exact (h : HasWindow sampling)
    (few : ¬ sampling.piCount > maxGridSize.toUInt64.toFloat) (near : sampling.IsNear (2 ^ 52))
    {first last : Int} (indices : HasIndices sampling first last) {k : Nat}
    (hk : sampling.Keeps k) : |((first + k : Int) : ℚ)| < 2 ^ 52 ∧
      toRat (sampling.multiple k) = nearest ((first + k : Int) * toRat sampling.piStep) := by
  obtain ⟨low, high⟩ := near
  push_cast at low high
  rw [abs_lt] at low high
  have value := toRat_multiple (hk.bound few) (hk.isFinite h)
  rw [multipleValue, indices.toRat_first] at value
  have below := (le_iff_toRat h.low (hk.isFinite h)).1 hk.low
  have above := (le_iff_toRat (hk.isFinite h) h.high).1 hk.high
  have small : |first + k| < 2 ^ 52 := by
    refine index_lt_of_near h.toRat_step.1 h.step_pos ?_
    push_cast
    rw [← value, abs_lt]
    exact ⟨by linarith, by linarith⟩
  have same : nearest ((first + k : Int) : ℚ) = (first + k : Int) :=
    nearest_intCast (small.le.trans (by norm_num))
  rw [← Int.cast_natCast, ← Int.cast_add, same] at value
  exact ⟨by exact_mod_cast small, value⟩

/-- Neighbours differ less than `2 ^ 52` steps away from zero. -/
theorem separates_of_near (h : HasWindow sampling)
    (few : ¬ sampling.piCount > maxGridSize.toUInt64.toFloat) (near : sampling.IsNear (2 ^ 52)) :
    sampling.Separates := by
  intro k hk hk'
  have positive := h.step_pos
  have least : 2 ^ (-1074 : Int) < toRat sampling.piStep :=
    (zpow_lt_zpow_right₀ one_lt_two (by norm_num)).trans_le h.toRat_step.2
  obtain ⟨first, last, indices⟩ :=
    exists_hasIndices (isFinite_piCount few (Nat.zero_lt_of_lt hk.index))
  -- each multiple is rounded by less than half a step
  have error {j : Nat} (hj : sampling.Keeps j) :
      |toRat (sampling.multiple j) - (first + j : Int) * toRat sampling.piStep| <
        toRat sampling.piStep / 2 := by
    obtain ⟨small, value⟩ := hj.index_exact h few near indices
    rw [value]
    refine abs_nearest_sub_lt least ?_
    rw [abs_mul, abs_of_pos positive]
    gcongr
  have left := (abs_lt.1 (error hk)).2
  have right := (abs_lt.1 (error hk')).1
  rw [lt_iff_toRat (hk.isFinite h) (hk'.isFinite h)]
  push_cast at left right
  linarith

end Near

end Curves.Sampling

import Curves.Proofs.Sampling.PiGrid

/-!
# The limit on multiples

Before a grid of multiples is generated, the number of its indices is compared with the limit on
samples. As long as the quotients of the ends of the window and the step have at most 53 bits, this
enforces the limit. Further away the indices that are compared are rounded, and two that are the
same infinity pass, as their difference is NaN.

Main statements:

* `piCount_gt_iff_countsTooMany`: what the comparison says about the computed indices;
* `enforcesLimit`: what it says about the multiples in the window, near zero;
* `piGrid_limited`: which grids are refused, and how large the others are.
-/

namespace Curves.Sampling
open Number

variable {sampling : Sampling}

/-- The indices of the multiples that lie in the window. -/
def indicesWithin (sampling : Sampling) : Set Int :=
  {k | toRat sampling.low ≤ k * toRat sampling.piStep ∧
    k * toRat sampling.piStep ≤ toRat sampling.high}

/-- Whether the computed indices of the first and the last multiple are too many apart: they are
numbers with more indices than allowed from one to the other, or one of them is infinite and the
other is not the same infinity. -/
def CountsTooMany (sampling : Sampling) : Prop :=
  (∃ first last, HasIndices sampling first last ∧ (maxGridSize : Int) < last - first + 1) ∨
    ¬ (sampling.piFirst.isFinite ∧ sampling.piLast.isFinite) ∧ sampling.piFirst ≠ sampling.piLast

/-- A grid is refused if more multiples than allowed lie in the window, and only if there is at most
one fewer than allowed; none is missing in a grid that is given. -/
structure EnforcesLimit (sampling : Sampling) : Prop where
  refused : maxGridSize < sampling.indicesWithin.encard → sampling.grid = .error .tooManySamples
  crowded : sampling.grid = .error .tooManySamples → maxGridSize ≤ sampling.indicesWithin.encard + 1
  complete : ∀ xs, sampling.grid = .ok xs → ∀ k ∈ sampling.indicesWithin,
    ∃ x ∈ xs, toRat x = nearest (k * toRat sampling.piStep)

section Limit

/-- In a window that is wide enough the count decides. -/
theorem grid_of_wide (ok : sampling.check = .ok ()) (spacing : sampling.spacing = .piMultiples)
    (wide : ¬ sampling.high - sampling.low < gridTolerance) : sampling.grid =
      if sampling.piCount > maxGridSize.toUInt64.toFloat then .error .tooManySamples
      else .ok (sampling.withEnds sampling.multiplesInside) := by
  rw [Sampling.grid, ok, spacing]
  change sampling.piGrid = _
  rw [piGrid_eq, if_neg wide]

section Indices
variable (h : HasWindow sampling)
include h

/-- An index is a number unless the quotient is too large; then it is an infinity. -/
theorem index_cases {x index : Float} (hx : x.isFinite)
    (finite : (x / sampling.piStep).isFinite → index.isFinite)
    (kept : (x / sampling.piStep).isFinite = false → index = x / sampling.piStep) :
    index.isFinite ∧ |nearest (toRat x / toRat sampling.piStep)| < overflow ∨
      ∃ s, index.toModel.unpack = .infinity s ∧
        overflow ≤ signFactor s * nearest (toRat x / toRat sampling.piStep) := by
  have rounded := div_roundsTo hx h.toRat_step.1 h.step_pos.ne'
  rcases rounded.finite_or_infinity with ⟨quotient, inside⟩ | ⟨s, infinite, far⟩
  · exact .inl ⟨finite quotient, inside⟩
  · rw [kept (isFinite_of_infinity infinite)]
    exact .inr ⟨s, infinite, far⟩

/-- The computed indices are numbers, or the same infinity, or an infinity is on the side of its
own end of the window. -/
theorem indices_cases : sampling.piFirst.isFinite ∧ sampling.piLast.isFinite ∨
    (∃ s, sampling.piFirst.toModel.unpack = .infinity s ∧
      sampling.piLast.toModel.unpack = .infinity s) ∨
    ¬ (sampling.piFirst.isFinite ∧ sampling.piLast.isFinite) ∧
      (sampling.piFirst.isFinite ∨ sampling.piFirst.toModel.unpack = .infinity .negative) ∧
      (sampling.piLast.isFinite ∨ sampling.piLast.toModel.unpack = .infinity .positive) := by
  have order : nearest (toRat sampling.low / toRat sampling.piStep) ≤
      nearest (toRat sampling.high / toRat sampling.piStep) := by
    have := h.step_pos
    have := h.ordered
    apply nearest_mono
    gcongr
  have first : sampling.piFirst.isFinite ∧ _ ∨ ∃ s, sampling.piFirst.toModel.unpack = _ ∧ _ :=
    index_cases h h.low (fun finite => (toRat_ceiling finite).1) (toIntegral_of_not_isFinite _)
  have last : sampling.piLast.isFinite ∧ _ ∨ ∃ s, sampling.piLast.toModel.unpack = _ ∧ _ :=
    index_cases h h.high (fun finite => (toRat_floor finite).1) (toIntegral_of_not_isFinite _)
  have large := overflow_pos
  rcases first with ⟨first, lowInside⟩ | ⟨s, first, low⟩
  · rcases last with ⟨last, -⟩ | ⟨t, last, high⟩
    · exact .inl ⟨first, last⟩
    · cases t with
      | positive => exact .inr (.inr ⟨by simp [isFinite_of_infinity last], .inl first, .inr last⟩)
      | negative =>
        rw [signFactor, neg_one_mul] at high
        linarith [abs_lt.1 lowInside]
  · rcases last with ⟨last, highInside⟩ | ⟨t, last, high⟩
    · cases s with
      | positive =>
        rw [signFactor, one_mul] at low
        linarith [abs_lt.1 highInside]
      | negative => exact .inr (.inr ⟨by simp [isFinite_of_infinity first], .inr first, .inl last⟩)
    · cases s <;> cases t
      case positive.negative =>
        rw [signFactor, one_mul] at low
        rw [signFactor, neg_one_mul] at high
        linarith
      case negative.positive =>
        exact .inr (.inr ⟨by simp [isFinite_of_infinity first], .inr first, .inr last⟩)
      all_goals exact .inr (.inl ⟨_, first, last⟩)

omit h in
/-- If the last index is infinitely far behind the first one, the limit is exceeded. -/
theorem piCount_gt_of_apart (infinite : ¬ (sampling.piFirst.isFinite ∧ sampling.piLast.isFinite))
    (first : sampling.piFirst.isFinite ∨ sampling.piFirst.toModel.unpack = .infinity .negative)
    (last : sampling.piLast.isFinite ∨ sampling.piLast.toModel.unpack = .infinity .positive) :
    sampling.piCount > maxGridSize.toUInt64.toFloat ∧ sampling.piFirst ≠ sampling.piLast := by
  have difference :
      (sampling.piLast - sampling.piFirst).toModel.unpack = .infinity .positive := by
    rcases last with last | last <;> rcases first with first | first
    · exact absurd ⟨first, last⟩ infinite
    · exact sub_infinity last first
    · exact infinity_sub last first
    · exact (infinity_sub_infinity last first).2 (by simp)
  constructor
  · exact gt_of_infinity (add_infinity difference toRat_one.1) toRat_maxGridSize.1
  · intro same
    rw [same] at first infinite
    rcases last with last | last <;> rcases first with first | first
    · exact infinite ⟨last, last⟩
    · simp [isFinite_of_infinity first] at last
    · simp [isFinite_of_infinity last] at first
    · rw [last] at first
      cases first

omit h in
/-- If both indices are the same infinity, the count is NaN and no limit is exceeded. -/
theorem not_piCount_gt_of_same {s : Float.Model.UnpackedFloat.Sign}
    (first : sampling.piFirst.toModel.unpack = .infinity s)
    (last : sampling.piLast.toModel.unpack = .infinity s) :
    ¬ sampling.piCount > maxGridSize.toUInt64.toFloat := by
  intro many
  have undefined : sampling.piCount.toModel.unpack = .notANumber :=
    add_notANumber ((infinity_sub_infinity last first).1 rfl) 1.0
  have number : sampling.piCount.toModel.unpack.isNaN = false := isNaN_eq_false_of_gt many
  rw [undefined] at number
  cases number

/-- The limit is exceeded as the computed indices say. -/
theorem piCount_gt_iff_countsTooMany :
    sampling.piCount > maxGridSize.toUInt64.toFloat ↔ sampling.CountsTooMany := by
  rcases indices_cases h with ⟨first, last⟩ | ⟨s, first, last⟩ | ⟨infinite, first, last⟩
  · obtain ⟨m, n, indices⟩ : ∃ m n, HasIndices sampling m n :=
      ⟨_, _, first, (toRat_ceiling (isFinite_of_toIntegral first)).2, last,
        (toRat_floor (isFinite_of_toIntegral last)).2⟩
    constructor
    · intro many
      exact .inl ⟨m, n, indices, indices.piCount_gt_iff.1 many⟩
    · rintro (⟨m', n', indices', many⟩ | ⟨infinite, -⟩)
      · exact indices'.piCount_gt_iff.2 many
      · exact absurd ⟨first, last⟩ infinite
  · refine iff_of_false (not_piCount_gt_of_same first last) ?_
    rintro (⟨m, n, indices, -⟩ | ⟨-, differ⟩)
    · have finite := indices.finiteFirst
      rw [isFinite_of_infinity first] at finite
      cases finite
    · exact differ (unpack_inj.1 (first.trans last.symm))
  · obtain ⟨many, differ⟩ := piCount_gt_of_apart infinite first last
    exact iff_of_true many (.inr ⟨infinite, differ⟩)

end Indices

theorem length_withEnds_le (sampling : Sampling) (xs : List Float) :
    (sampling.withEnds xs).length ≤ xs.length + 2 := by
  rw [withEnds_eq]
  unfold lowEnd highEnd
  split_ifs <;> simp

/-- The ends that are added are not inside. -/
theorem countP_withEnds_le (h : HasWindow sampling) (xs : List Float) :
    (sampling.withEnds xs).countP (fun x => sampling.low < x && x < sampling.high) ≤ xs.length := by
  have low : ¬ sampling.low < sampling.low := by simp [lt_iff_toRat h.low h.low]
  have high : ¬ sampling.high < sampling.high := by simp [lt_iff_toRat h.high h.high]
  have ends : (sampling.withEnds xs).countP (fun x => sampling.low < x && x < sampling.high) =
      xs.countP fun x => sampling.low < x && x < sampling.high := by
    rw [withEnds_eq]
    unfold lowEnd highEnd
    split_ifs <;> simp [low, high]
  rw [ends]
  exact List.countP_le_length

/-- Between indices that are this near the count does not overflow. -/
theorem HasIndices.isFinite_piCount {first last : Int} (h : HasIndices sampling first last)
    (hfirst : |first| ≤ 2 ^ 53) (hlast : |last| ≤ 2 ^ 53) : sampling.piCount.isFinite := by
  have difference := sub_roundsTo h.finiteLast h.finiteFirst
  rw [h.toRat_last, h.toRat_first, ← Int.cast_sub] at difference
  have firstBounds := abs_le.1 hfirst
  have lastBounds := abs_le.1 hlast
  have small : |((last - first : Int) : ℚ)| ≤ 2 ^ (54 : Int) := by
    exact_mod_cast abs_le.2 ⟨by omega, by omega⟩
  obtain ⟨finite, value⟩ := difference.inside_of_abs_le small (by norm_num) (by norm_num)
  have bound := abs_le.1 (abs_nearest_le_zpow (by norm_num) small)
  rw [← value] at bound
  have count := add_roundsTo finite toRat_one.1
  rw [toRat_one.2] at count
  exact (count.inside_of_abs_le (e := 55) (abs_le.2 ⟨by linarith, by linarith⟩) (by norm_num)
    (by norm_num)).1

theorem abs_ceil_le {q : ℚ} {n : Int} (h : |q| ≤ n) : |⌈q⌉| ≤ n := by
  obtain ⟨low, high⟩ := abs_le.1 h
  refine abs_le.2 ⟨?_, Int.ceil_le.2 high⟩
  exact_mod_cast low.trans (Int.le_ceil q)

theorem abs_floor_le {q : ℚ} {n : Int} (h : |q| ≤ n) : |⌊q⌋| ≤ n := by
  obtain ⟨low, high⟩ := abs_le.1 h
  refine abs_le.2 ⟨Int.le_floor.2 (by exact_mod_cast low), ?_⟩
  exact_mod_cast (Int.floor_le q).trans high

section Near
variable (h : HasWindow sampling) (near : sampling.IsNear (2 ^ 53))
include h

/-- Near zero the quotient of an end and the step is rounded once, and is at most `2 ^ 53`. -/
theorem toRat_quotient {x : Float} (hx : x.isFinite)
    (small : |toRat x| < (2 ^ 53 : Nat) * toRat sampling.piStep) :
    (x / sampling.piStep).isFinite ∧
      toRat (x / sampling.piStep) = nearest (toRat x / toRat sampling.piStep) ∧
      |nearest (toRat x / toRat sampling.piStep)| ≤ 2 ^ (53 : Int) := by
  have positive := h.step_pos
  have bound : |toRat x / toRat sampling.piStep| ≤ 2 ^ (53 : Int) := by
    rw [abs_div, abs_of_pos positive, div_le_iff₀ positive]
    exact_mod_cast small.le
  have rounded := div_roundsTo hx h.toRat_step.1 positive.ne'
  obtain ⟨finite, value⟩ := rounded.inside_of_abs_le bound (by norm_num) (by norm_num)
  exact ⟨finite, value, abs_nearest_le_zpow (by norm_num) bound⟩

include near

/-- Near zero the indices are below `2 ^ 53`. -/
theorem abs_index_lt {k : Int} (hk : k ∈ sampling.indicesWithin) : |k| < 2 ^ 53 := by
  have positive := h.step_pos
  have bound := (abs_le_max_abs_abs hk.1 hk.2).trans_lt (max_lt near.1 near.2)
  rw [abs_mul, abs_of_pos positive] at bound
  exact_mod_cast lt_of_mul_lt_mul_right bound positive.le

/-- All multiples in the window are generated, and at most one more at either end. -/
theorem exists_indices_of_near : ∃ first last, HasIndices sampling first last ∧
    sampling.piCount.isFinite ∧ (∀ k ∈ sampling.indicesWithin, first ≤ k ∧ k ≤ last) ∧
      ∀ k, first < k → k < last → k ∈ sampling.indicesWithin := by
  have positive := h.step_pos
  obtain ⟨finiteLow, low, smallLow⟩ := toRat_quotient h h.low near.1
  obtain ⟨finiteHigh, high, smallHigh⟩ := toRat_quotient h h.high near.2
  obtain ⟨finiteFirst, first⟩ := toRat_ceiling finiteLow
  obtain ⟨finiteLast, last⟩ := toRat_floor finiteHigh
  rw [low] at first
  rw [high] at last
  have smallFirst := abs_ceil_le (n := 2 ^ 53) (by exact_mod_cast smallLow)
  have smallLast := abs_floor_le (n := 2 ^ 53) (by exact_mod_cast smallHigh)
  have ceil := Int.le_ceil (nearest (toRat sampling.low / toRat sampling.piStep))
  have floor := Int.floor_le (nearest (toRat sampling.high / toRat sampling.piStep))
  have indices : HasIndices sampling _ _ := ⟨finiteFirst, first, finiteLast, last⟩
  refine ⟨_, _, indices, indices.isFinite_piCount smallFirst smallLast, fun k hk => ⟨?_, ?_⟩, ?_⟩
  · refine Int.ceil_le.2 (nearest_le_intCast (abs_index_lt h near hk).le ?_)
    rw [div_le_iff₀ positive]
    exact hk.1
  · refine Int.le_floor.2 (intCast_le_nearest (abs_index_lt h near hk).le ?_)
    rw [le_div_iff₀ positive]
    exact hk.2
  · intro k left right
    have firstBounds := abs_le.1 smallFirst
    have lastBounds := abs_le.1 smallLast
    have small : |k| ≤ 2 ^ 53 := abs_le.2 ⟨by omega, by omega⟩
    refine ⟨?_, ?_⟩
    · rw [← div_le_iff₀ positive]
      by_contra! below
      exact left.not_ge (by exact_mod_cast (intCast_le_nearest small below.le).trans ceil)
    · rw [← le_div_iff₀ positive]
      by_contra! above
      exact right.not_ge (by exact_mod_cast floor.trans (nearest_le_intCast small above.le))

/-- The multiple with an index of the window is kept. -/
theorem exists_keeps (few : ¬ sampling.piCount > maxGridSize.toUInt64.toFloat) {k : Int}
    (hk : k ∈ sampling.indicesWithin) : ∃ i, sampling.Keeps i ∧
      toRat (sampling.multiple i) = nearest (k * toRat sampling.piStep) := by
  obtain ⟨first, last, indices, finite, within, -⟩ := exists_indices_of_near h near
  obtain ⟨left, right⟩ := within k hk
  obtain ⟨i, hi⟩ := Int.eq_ofNat_of_zero_le (Int.sub_nonneg_of_le left)
  have index : i < sampling.multipleCount := by
    rw [indices.multipleCount_eq finite few]
    omega
  have small : i < 2 ^ 53 := (index.trans_le (multipleCount_le few)).trans (by decide)
  have rounded := index_roundsTo small indices.finiteFirst
  have exact : toRat sampling.piFirst + i = k := by
    rw [indices.toRat_first]
    exact_mod_cast (by omega : first + i = k)
  have bound := (abs_index_lt h near hk).le
  rw [exact] at rounded
  obtain ⟨finiteIndex, value⟩ :=
    rounded.inside_of_abs_le (e := 53) (by exact_mod_cast bound) (by norm_num) (by norm_num)
  rw [nearest_intCast bound] at value
  have product := mul_roundsTo finiteIndex h.toRat_step.1
  rw [value] at product
  have low := nearest_mono hk.1
  have high := nearest_mono hk.2
  rw [nearest_toRat h.low] at low
  rw [nearest_toRat h.high] at high
  have inside := product.isFinite_of_between low high
  have multiple := product.toRat_eq inside
  refine ⟨i, ⟨index, ?_, ?_⟩, multiple⟩
  · exact (le_iff_toRat h.low inside).2 (low.trans multiple.ge)
  · exact (le_iff_toRat inside h.high).2 (multiple.le.trans high)

/-- Near zero the limit on multiples is enforced. -/
theorem enforcesLimit (grid : sampling.grid =
    if sampling.piCount > maxGridSize.toUInt64.toFloat then .error .tooManySamples
    else .ok (sampling.withEnds sampling.multiplesInside)) : EnforcesLimit sampling := by
  obtain ⟨first, last, indices, finite, within, inner⟩ := exists_indices_of_near h near
  have many := indices.piCount_gt_iff
  have error : sampling.grid = .error .tooManySamples ↔ (maxGridSize : Int) < last - first + 1 := by
    rw [grid, ← many]
    split_ifs with h <;> simp [h]
  refine ⟨fun crowd => ?_, fun refused => ?_, fun xs given k hk => ?_⟩
  · have below : sampling.indicesWithin ⊆ Finset.Icc first last := by
      rw [Finset.coe_Icc]
      exact fun k hk => within k hk
    have size := crowd.trans_le (Set.encard_le_encard below)
    rw [Set.encard_coe_eq_coe_finsetCard, Int.card_Icc, Nat.cast_lt] at size
    exact error.2 (by omega)
  · have above : (Finset.Ioo first last : Set Int) ⊆ sampling.indicesWithin := by
      rw [Finset.coe_Ioo]
      exact fun k hk => inner k hk.1 hk.2
    have size := Set.encard_le_encard above
    rw [Set.encard_coe_eq_coe_finsetCard, Int.card_Ioo] at size
    have enough : maxGridSize ≤ (last - first - 1).toNat + 1 := by
      have := error.1 refused
      omega
    calc (maxGridSize : ℕ∞) ≤ ((last - first - 1).toNat + 1 : Nat) := by exact_mod_cast enough
      _ ≤ sampling.indicesWithin.encard + 1 := by
        rw [Nat.cast_add, Nat.cast_one]
        gcongr
  · rw [grid] at given
    split_ifs at given with few
    obtain ⟨i, kept, value⟩ := exists_keeps h near few hk
    refine ⟨_, ?_, value⟩
    rw [← Except.ok.inj given, withEnds_eq]
    simp only [List.mem_append]
    exact .inl (.inr (mem_multiplesInside.2 ⟨i, kept, rfl⟩))

end Near

/-- A grid of multiples is refused exactly if the computed indices are too many apart, or it has at
most two values more than the limit allows, the ends of its window. Less than `2 ^ 53` steps away
from zero the limit is enforced and nothing is missing. -/
theorem piGrid_limited (ok : sampling.check = .ok ()) (spacing : sampling.spacing = .piMultiples)
    (wide : ¬ sampling.high - sampling.low < gridTolerance) :
    (sampling.grid = .error .tooManySamples ∨ ∃ xs, sampling.grid = .ok xs ∧
      xs.length ≤ maxGridSize + 2 ∧
      xs.countP (fun x => sampling.low < x && x < sampling.high) ≤ maxGridSize) ∧
    (sampling.grid = .error .tooManySamples ↔ sampling.CountsTooMany) ∧
    (sampling.IsNear (2 ^ 53) → EnforcesLimit sampling) := by
  have h := hasWindow ok
  have grid := grid_of_wide ok spacing wide
  refine ⟨?_, ?_, fun near => enforcesLimit h near grid⟩
  · rw [grid]
    split_ifs with few
    · exact .inl rfl
    · have length := (length_multiplesInside_le sampling).trans (multipleCount_le few)
      refine .inr ⟨_, rfl, ?_, (countP_withEnds_le h _).trans length⟩
      exact (length_withEnds_le ..).trans (Nat.add_le_add_right length 2)
  · rw [grid, ← piCount_gt_iff_countsTooMany h]
    split_ifs with few <;> simp [few]

theorem piGrid_limited_halfTurns : halfTurns.check = .ok () ∧ halfTurns.spacing = .piMultiples ∧
    (¬ halfTurns.high - halfTurns.low < gridTolerance) ∧ halfTurns.IsNear (2 ^ 53) ∧
      ¬ halfTurns.CountsTooMany ∧ EnforcesLimit halfTurns := by
  have ok : halfTurns.check = .ok () := by decide +kernel
  have wide : ¬ halfTurns.high - halfTurns.low < gridTolerance := by decide +kernel
  have step : halfTurns.piStep = pi := by decide +kernel
  have high : halfTurns.high.toModel.unpack = .finite .positive (2 ^ 52) (-50) (by decide) := by rfl
  have near : halfTurns.IsNear (2 ^ 53) := by
    have := toRat_pi.2.1
    have four : toRat halfTurns.high = 4 := by
      rw [(toRat_of_unpack high).2, signFactor]
      norm_num
    rw [IsNear, step, show toRat halfTurns.low = 0 from toRat_zero.2, four]
    norm_num
    constructor <;> linarith
  obtain ⟨-, refused, limit⟩ := piGrid_limited ok rfl wide
  have given : halfTurns.grid = .ok [0.0, pi, 4.0] := by decide +kernel
  refine ⟨ok, rfl, wide, near, ?_, limit near⟩
  intro many
  rw [refused.2 many] at given
  cases given

/-- So many steps fit into the window that more multiples than `n` lie in it. -/
theorem lt_encard_indicesWithin (h : HasWindow sampling) {n : Nat}
    (wide : (n + 1) * toRat sampling.piStep ≤ toRat sampling.high - toRat sampling.low) :
    n < sampling.indicesWithin.encard := by
  have positive := h.step_pos
  have below := Int.le_ceil (toRat sampling.low / toRat sampling.piStep)
  have above := Int.ceil_lt_add_one (toRat sampling.low / toRat sampling.piStep)
  rw [div_le_iff₀ positive] at below
  rw [← sub_lt_iff_lt_add, lt_div_iff₀ positive] at above
  generalize ⌈toRat sampling.low / toRat sampling.piStep⌉ = first at below above
  have inside : (Finset.Icc first (first + n) : Set Int) ⊆ sampling.indicesWithin := by
    rw [Finset.coe_Icc]
    rintro k ⟨left, right⟩
    have left : (first : ℚ) ≤ k := by exact_mod_cast left
    have right : (k : ℚ) ≤ first + n := by exact_mod_cast right
    exact ⟨by nlinarith, by nlinarith⟩
  have size := Set.encard_le_encard inside
  rw [Set.encard_coe_eq_coe_finsetCard, Int.card_Icc] at size
  refine lt_of_lt_of_le ?_ size
  exact_mod_cast (by omega : n < (first + n + 1 - first).toNat)

/-- A sampling for which the quotients of the ends of the window and the step overflow. -/
def farthest : Sampling :=
  { low := .ofBits 0x7e37e43c8800759c, high := .ofBits 0x7e47e43c8800759c
    resolution := 18446744073709551615, spacing := .piMultiples }

/-- The difference of two infinite indices is NaN, which is not more than the limit. -/
theorem farthest_not_refused : farthest.check = .ok () ∧ farthest.spacing = .piMultiples ∧
    (¬ farthest.high - farthest.low < gridTolerance) ∧
      maxGridSize < farthest.indicesWithin.encard ∧
        farthest.grid = .ok [farthest.low, farthest.high] := by
  have ok : farthest.check = .ok () := by decide +kernel
  refine ⟨ok, rfl, by decide +kernel, lt_encard_indicesWithin (hasWindow ok) ?_, by decide +kernel⟩
  have low : farthest.low.toModel.unpack = .finite .positive 6724873095247260 944 (by decide) := by
    rfl
  have high : farthest.high.toModel.unpack =
      .finite .positive 6724873095247260 945 (by decide) := by
    rfl
  have step : farthest.piStep.toModel.unpack =
      .finite .positive 7074237752028440 (-115) (by decide) := by
    rfl
  have double : (2 : ℚ) ^ (945 : Int) = 2 * 2 ^ (944 : Int) := (zpow_one_add₀ two_ne_zero 944)
  have large : (1 : ℚ) ≤ 2 ^ (944 : Int) := one_le_zpow₀ one_le_two (by norm_num)
  rw [(toRat_of_unpack low).2, (toRat_of_unpack high).2, (toRat_of_unpack step).2, signFactor,
    double]
  have small :
      (maxGridSize + 1) * (1 * ((7074237752028440 : Nat) * 2 ^ (-115 : Int))) ≤ (1 : ℚ) := by
    norm_num [maxGridSize]
  generalize (2 : ℚ) ^ (944 : Int) = scale at large
  push_cast at small ⊢
  linarith

end Limit

end Curves.Sampling

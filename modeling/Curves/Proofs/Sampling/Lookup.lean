import Curves.Proofs.Number.Infinity
import Curves.Proofs.Number.Integral
import Curves.Proofs.Number.Interpolation
import Curves.Proofs.Sampling.Clamping

/-!
# Values looked up in a table

A number is looked up in a cell of the table, between two neighbouring entries that are finite, and
beyond the window at its end. The way through the cell is computed in double precision and the
interpolation in single precision. So what is looked up is finite and lies between the two entries
unless their difference overflows, or the way is rounded to all of the cell and the upper entry is
missed by a rounding.
-/

namespace Curves
open Number
open Float.Model.UnpackedFloat (Sign)

theorem Sample.isFinite_entry (s : Sample) : s.entry.isFinite := by
  unfold entry
  dsimp only
  split_ifs with finite
  · exact finite
  · decide +kernel

namespace LookupTable

/-- What is known of tables of curves. -/
structure IsBuilt (table : LookupTable) : Prop where
  width_finite : table.width.isFinite
  width_pos : 0 < toRat table.width
  size_le : table.size ≤ maxGridSize
  entries : ∀ v ∈ table.values, v.isFinite

theorem isBuilt {plan : Tabulation} {curve : Float → Float} {table : LookupTable}
    (h : plan.table curve = .ok table) : table.IsBuilt := by
  obtain ⟨size, length, -, width, values, -⟩ := Tabulation.table_eq_ok h
  refine ⟨width ▸ length.1, width ▸ length.toRat_pos, ?_, ?_⟩
  · rw [LookupTable.size, values]
    simpa using size
  · intro v hv
    rw [values] at hv
    obtain ⟨s, -, rfl⟩ := List.mem_map.1 (List.mem_toArray.1 hv)
    exact s.isFinite_entry

def last (table : LookupTable) : Nat := table.size - 1

/-- The place of `x` in the table before it is clamped. -/
def rawPosition (table : LookupTable) (x : Float) : Float :=
  (x / table.width + 0.5) * table.last.toUInt64.toFloat

def position (table : LookupTable) (x : Float) : Float :=
  Bounds.clamp ⟨0.0, table.last.toUInt64.toFloat⟩ (table.rawPosition x)

theorem last_pos (table : LookupTable) : 0 < table.last :=
  Nat.sub_pos_of_lt table.two_le_size

section Position
variable {table : LookupTable} (h : table.IsBuilt) {x : Float}
include h

theorem IsBuilt.last_lt : table.last < 2 ^ 24 := by
  have bound : maxGridSize = 2 ^ 24 := rfl
  have := h.size_le
  have := table.last_pos
  unfold last at *
  omega

theorem IsBuilt.toRat_last : table.last.toUInt64.toFloat.isFinite ∧
    toRat table.last.toUInt64.toFloat = table.last ∧ (1 : ℚ) ≤ table.last := by
  obtain ⟨finite, value⟩ := toRat_natCast (h.last_lt.trans (by norm_num : 2 ^ 24 < 2 ^ 53))
  exact ⟨finite, value, by exact_mod_cast table.last_pos⟩

/-- The places in the table are valid bounds. -/
theorem IsBuilt.isValid_places :
    (Bounds.mk 0.0 table.last.toUInt64.toFloat).isValid := by
  obtain ⟨finite, value, one⟩ := h.toRat_last
  obtain ⟨zero, zeroValue⟩ := toRat_zero
  refine Bounds.isValid_iff.2
    ⟨isNaN_eq_false_of_isFinite zero, isNaN_eq_false_of_isFinite finite, ?_⟩
  rw [gt_iff_lt, lt_iff_toRat finite zero, value, zeroValue]
  linarith

theorem isNaN_rawPosition (number : x.isNaN = false) : (table.rawPosition x).isNaN = false := by
  obtain ⟨finite, value, one⟩ := h.toRat_last
  exact isNaN_mul (isNaN_add (isNaN_div number h.width_finite h.width_pos) toRat_half.1) finite
    (by rw [value]; linarith)

/-- The place of a number in a table is never beyond its ends. -/
theorem toRat_position (number : x.isNaN = false) : (table.position x).isFinite ∧
    0 ≤ toRat (table.position x) ∧ toRat (table.position x) ≤ table.last := by
  obtain ⟨finite, value, one⟩ := h.toRat_last
  obtain ⟨zero, zeroValue⟩ := toRat_zero
  have places := Bounds.holds_clamp h.isValid_places (isNaN_rawPosition h number)
  rw [← position, Bounds.holds_iff] at places
  obtain ⟨low, high⟩ := places
  have inside : (table.position x).isFinite := isFinite_of_between zero finite low
    ((le_iff_not_gt (isNaN_eq_false_of_isFinite finite)).1 high).2
  rw [le_iff_toRat zero inside, zeroValue] at low
  rw [le_iff_toRat inside finite, value] at high
  exact ⟨inside, low, high⟩

/-! ### Ends of the window -/

theorem beyond_rawPosition {s : Sign} (hx : Beyond s (toRat table.width / 2) x) :
    Beyond s (nearest (nearest (1 / 2 + signFactor s * (1 / 2)) * table.last))
      (table.rawPosition x) := by
  obtain ⟨finite, value, one⟩ := h.toRat_last
  have width := h.width_pos
  have sum : 0 ≤ 1 / 2 + signFactor s * (1 / 2) := by
    cases s <;> norm_num [signFactor]
  have half : nearest (toRat table.width / 2 / toRat table.width) = 1 / 2 := by
    rw [div_right_comm, div_self width.ne', ← toRat_half.2]
    exact nearest_toRat toRat_half.1
  have quotient := hx.div h.width_finite width (by positivity)
  rw [half] at quotient
  have shifted := quotient.add toRat_half.1 (by rwa [toRat_half.2])
  rw [toRat_half.2] at shifted
  have scaled := shifted.mul finite (by rw [value]; linarith) (nearest_nonneg sum)
  rwa [value] at scaled

/-- A number above the window is at the last entry. -/
theorem toRat_position_of_beyond_high (hx : Beyond .positive (toRat table.width / 2) x)
    (number : x.isNaN = false) : toRat (table.position x) = table.last := by
  obtain ⟨finite, value, one⟩ := h.toRat_last
  obtain ⟨inside, low, high⟩ := toRat_position h number
  have far := beyond_rawPosition h hx
  have sum : nearest (1 / 2 + signFactor .positive * (1 / 2)) = 1 := by
    rw [signFactor, show (1 / 2 + 1 * (1 / 2) : ℚ) = (1 : Int) by norm_num,
      nearest_intCast (by norm_num), Int.cast_one]
  rw [sum, one_mul, nearest_natCast (h.last_lt.trans (by norm_num))] at far
  have above := far.le finite value.le
  refine le_antisymm high ?_
  rw [← value, ← le_iff_toRat finite inside, position, Bounds.clamp_eq h.isValid_places]
  split_ifs with below
  · have order : 0.0 ≤ table.rawPosition x :=
      far.le toRat_zero.1 (toRat_zero.2.trans_le (Nat.cast_nonneg _))
    exact absurd below ((le_iff_not_gt (isNaN_rawPosition h number)).1 order).2
  · exact le_self (isNaN_eq_false_of_isFinite finite)
  · exact above

/-- A number below the window is at the first entry. -/
theorem toRat_position_of_beyond_low (hx : Beyond .negative (toRat table.width / 2) x)
    (number : x.isNaN = false) : toRat (table.position x) = 0 := by
  obtain ⟨finite, value, one⟩ := h.toRat_last
  obtain ⟨inside, low, -⟩ := toRat_position h number
  have far := beyond_rawPosition h hx
  obtain ⟨zero, zeroValue⟩ := toRat_zero
  have sum : (1 / 2 + signFactor .negative * (1 / 2) : ℚ) = 0 := by norm_num [signFactor]
  rw [sum, nearest_zero, zero_mul, nearest_zero] at far
  have below : table.rawPosition x ≤ 0.0 := far.ge zero (by rw [zeroValue, neg_zero])
  refine le_antisymm ?_ low
  rw [← zeroValue, ← le_iff_toRat inside zero, position, Bounds.clamp_eq h.isValid_places]
  split_ifs with less above
  · exact le_self (isNaN_eq_false_of_isFinite zero)
  · have order := far.ge finite (by rw [value, neg_zero]; linarith)
    exact absurd above ((le_iff_not_gt (isNaN_eq_false_of_isFinite finite)).1 order).2
  · exact below

/-! ### Cells -/

/-- The lower entry of a cell is less than one step before the place. -/
theorem floor_position (number : x.isNaN = false) :
    ((table.cell x).lower : ℚ) ≤ toRat (table.position x) ∧
      toRat (table.position x) < (table.cell x).lower + 1 ∧ (table.cell x).lower ≤ table.last := by
  obtain ⟨finite, low, high⟩ := toRat_position h number
  obtain ⟨finiteFloor, value⟩ := toRat_floor finite
  obtain ⟨n, hn⟩ := Int.eq_ofNat_of_zero_le (Int.floor_nonneg.2 low)
  have below := Int.floor_le (toRat (table.position x))
  have above := Int.lt_floor_add_one (toRat (table.position x))
  rw [hn, Int.cast_natCast] at value below above
  have most : n ≤ table.last := by exact_mod_cast below.trans high
  have lower : (table.cell x).lower = n :=
    toNat_toUInt64 finiteFloor value (by have := h.last_lt; omega)
  rw [lower]
  exact ⟨below, above, most⟩

/-- The upper entry of a cell is the next one, if there is one. -/
theorem cell_upper (number : x.isNaN = false) :
    (table.cell x).lower ≤ (table.cell x).upper ∧ (table.cell x).upper ≤ table.last ∧
      (table.cell x).upper ≤ (table.cell x).lower + 1 := by
  have upper : (table.cell x).upper = min ((table.cell x).lower + 1) table.last := rfl
  have := (floor_position h number).2.2
  omega

/-- The way through the cell, in double precision and rounded to single precision. -/
theorem fraction_eq (number : x.isNaN = false) : (table.cell x).fraction.isFinite ∧
    singleRat (table.cell x).fraction =
      nearestIn .binary32 (nearest (toRat (table.position x) - (table.cell x).lower)) ∧
    0 ≤ singleRat (table.cell x).fraction ∧ singleRat (table.cell x).fraction ≤ 1 := by
  obtain ⟨finite, -, -⟩ := toRat_position h number
  obtain ⟨low, high, most⟩ := floor_position h number
  have small : (table.cell x).lower < 2 ^ 53 := by have := h.last_lt; omega
  obtain ⟨finiteLower, value⟩ := toRat_natCast small
  have difference := sub_roundsTo finite finiteLower
  rw [value] at difference
  generalize hq : toRat (table.position x) - (table.cell x).lower = q at difference
  have nonneg : 0 ≤ q := by linarith
  have most : q ≤ 1 := by linarith
  obtain ⟨finiteWay, way⟩ := difference.inside_of_abs_le (e := 0) (by rwa [abs_of_nonneg nonneg])
    (by norm_num) (by norm_num)
  have rounded : RoundsToSingle (table.cell x).fraction (nearest q) :=
    way ▸ toSingle_rounds finiteWay
  have oneSingle : nearestIn .binary32 1 = 1 := by
    rw [← singleRat_one.2]
    exact nearestIn_singleRat singleRat_one.1
  have above := nearestIn_nonneg .binary32 (nearest_nonneg nonneg)
  have below := nearestIn_mono .binary32 ((nearest_mono most).trans nearest_one.le)
  rw [oneSingle] at below
  have inside : (table.cell x).fraction.isFinite :=
    rounded.isFinite_of_between (singleRat_zero.2 ▸ above) (singleRat_one.2 ▸ below)
  rw [rounded.singleRat_eq inside]
  exact ⟨inside, rfl, above, below⟩

theorem exists_entry {i : Nat} (hi : i ≤ table.last) :
    ∃ v, table.values[i]? = some v ∧ v.isFinite := by
  have bound : i < table.values.size := by
    have := table.two_le_size
    unfold last size at hi
    omega
  exact ⟨_, Array.getElem?_eq_getElem bound, h.entries _ (Array.getElem_mem bound)⟩

omit h in
/-- What is looked up is interpolated between the two entries of the cell. -/
theorem valueAt_eq {a b : Float32} (number : x.isNaN = false)
    (ha : table.values[(table.cell x).lower]? = some a)
    (hb : table.values[(table.cell x).upper]? = some b) :
    table.valueAt x = a + (b - a) * (table.cell x).fraction := by
  rw [valueAt, number, if_neg Bool.false_ne_true]
  dsimp only
  rw [Array.getD_eq_getD_getElem?, Array.getD_eq_getD_getElem?, ha, hb]
  rfl

end Position

/-- What is looked up at `x`, between the entries `a` and `b` of its cell. -/
structure Interpolates (table : LookupTable) (x : Float) (a b : Float32) : Prop where
  lower : table.values[(table.cell x).lower]? = some a
  upper : table.values[(table.cell x).upper]? = some b
  neighbours : (table.cell x).lower ≤ (table.cell x).upper ∧
    (table.cell x).upper ≤ (table.cell x).lower + 1
  finite : a.isFinite ∧ b.isFinite
  between_iff : Between a b (table.valueAt x) ↔
    (b - a).isFinite ∧ ((table.cell x).fraction < 1.0 ∨ Between a b (a + (b - a)))
  above : Beyond .positive (toRat table.width / 2) x →
    (table.cell x).lower = table.last ∧ table.valueAt x == a
  below : Beyond .negative (toRat table.width / 2) x →
    (table.cell x).lower = 0 ∧ (table.valueAt x == a ↔ (b - a).isFinite)

/-- In the table of a curve a number is looked up between two neighbouring entries. The result is
finite and between them unless their difference overflows, or the way to the upper one is rounded
to all of it and the sum of the lower one and the difference is not between them. Above the window
it is the last entry, and below it the first one unless the first difference overflows. -/
theorem valueAt_interpolates {plan : Tabulation} {curve : Float → Float} {table : LookupTable}
    (built : plan.table curve = .ok table) {x : Float} (number : x.isNaN = false) :
    ∃ a b, table.Interpolates x a b := by
  have h := isBuilt built
  obtain ⟨upperLow, upperMost, upperHigh⟩ := cell_upper h number
  obtain ⟨low, high, most⟩ := floor_position h number
  obtain ⟨finite, value, nonneg, one⟩ := fraction_eq h number
  obtain ⟨a, lower, ha⟩ := exists_entry h most
  obtain ⟨b, upper, hb⟩ := exists_entry h upperMost
  have result := valueAt_eq number lower upper
  have exact {n : Nat} (place : toRat (table.position x) = n) :
      (table.cell x).lower = n ∧ singleRat (table.cell x).fraction = 0 := by
    rw [place] at low high value
    have same : (table.cell x).lower = n := by
      have : (table.cell x).lower ≤ n := by exact_mod_cast low
      have : n < (table.cell x).lower + 1 := by exact_mod_cast high
      omega
    rw [value, same, sub_self, nearest_zero, nearestIn_zero]
    exact ⟨rfl, rfl⟩
  refine ⟨a, b, lower, upper, ⟨upperLow, upperHigh⟩, ⟨ha, hb⟩, ?_, fun far => ?_, fun far => ?_⟩
  · rw [result, interpolation_between_iff ha hb finite nonneg one,
      single_lt_iff finite singleRat_one.1, singleRat_one.2]
  · obtain ⟨last, zero⟩ := exact (toRat_position_of_beyond_high h far number)
    have same : (table.cell x).upper = (table.cell x).lower := by omega
    rw [same, lower] at upper
    obtain rfl := Option.some_inj.1 upper
    rw [result]
    exact ⟨last, (interpolation_zero_iff ha finite zero).2 (isFinite_sub_self ha)⟩
  · obtain ⟨first, zero⟩ :=
      exact ((toRat_position_of_beyond_low h far number).trans Nat.cast_zero.symm)
    rw [result]
    exact ⟨first, interpolation_zero_iff ha finite zero⟩

def ends : Tabulation := { size := 2, width := 2.0, clamp := none, guard := none }

theorem valueAt_interpolates_quarter : ∃ table a b,
    ends.table (Formula.ofSource "x").eval = .ok table ∧ (0.25 : Float).isNaN = false ∧
      table.Interpolates 0.25 a b := by
  have number : (0.25 : Float).isNaN = false := by decide +kernel
  have built := Tabulation.table_of_check (by decide : 2 ≤ ends.size.toNat) (by decide +kernel)
    (Formula.ofSource "x").eval
  obtain ⟨a, b, h⟩ := valueAt_interpolates built number
  exact ⟨_, a, b, built, number, h⟩

/-- A curve whose values at the ends of the window are further apart than any finite number. -/
def steep : Float → Float := (Formula.ofSource "300000000000000000000000000000000000000*x").eval

/-- The difference of the entries overflows, and its product with no way at all is NaN. -/
theorem steep_not_interpolated : ∃ table, ends.table steep = .ok table ∧
    Beyond .negative (toRat table.width / 2) (-10.0) ∧ (-10.0 : Float).isNaN = false ∧
      (table.valueAt (-10.0)).isNaN = true ∧ ∀ v ∈ table.values, v.isFinite := by
  refine ⟨_, Tabulation.table_of_check (by decide) (by decide +kernel) steep, ?_,
    by decide +kernel, by decide +kernel, ?_⟩
  · have unpacked : ends.width.toModel.unpack = .finite .positive (2 ^ 52) (-51) (by decide) := by
      rfl
    have far : (-10.0 : Float).toModel.unpack =
        .finite .negative 5629499534213120 (-49) (by decide) := by
      rfl
    obtain ⟨finite, value⟩ := toRat_of_unpack far
    refine .inr ⟨finite, ?_⟩
    change toRat ends.width / 2 ≤ _
    rw [(toRat_of_unpack unpacked).2, value, signFactor, signFactor]
    norm_num
  · exact (isBuilt (Tabulation.table_of_check (by decide) (by decide +kernel) steep)).entries

end LookupTable

end Curves

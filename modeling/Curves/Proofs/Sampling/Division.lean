import Curves.Proofs.Number.Infinity
import Curves.Proofs.Number.Integral
import Curves.Proofs.Number.Interpolation
import Curves.Proofs.Sampling.Points

/-!
# Division of gaps

A gap between two points is divided at `a + (b - a) * (j / n)`, with four roundings. Unless the
width `b - a` overflows none of them leaves the gap or changes the order of the values, because
`j / n` is less than one by so much that the product stays below the exact width. Neighbouring
values may coincide where the parts are as small as the distance of doubles.

Main statements:

* `HasWidth.value_rounded`, `HasWidth.value_mono`: the values stay between the ends and in order;
* `HasWidth.abs_value_sub_lt`: how far a value is from its place;
* `IsLongGap.isDivided`: how many values there are, and when they are strictly inside.
-/

namespace Curves
open Number
open Float.Model (Format)

/-! ## Values between two ends -/

def fraction (n j : Nat) : Float := j.toUInt64.toFloat / n.toUInt64.toFloat

/-- The value with index `j` where the interval from `a` to `b` is divided into `n` parts. -/
def dividingValue (a b : Float) (n j : Nat) : Float := a + (b - a) * fraction n j

/-- How far that value is from `a`, before it is rounded. -/
def offset (a b : Float) (n j : Nat) : Float := (b - a) * fraction n j

/-- `x` is finite, the double nearest to `q`, and lies from `low` to `high`. -/
structure RoundedWithin (x : Float) (q low high : ℚ) : Prop where
  finite : x.isFinite
  value : toRat x = nearest q
  low_le : low ≤ toRat x
  le_high : toRat x ≤ high

theorem roundedWithin {x : Float} {q low high : ℚ} (rounds : RoundsTo x q) (finite : x.isFinite)
    (below : low ≤ nearest q) (above : nearest q ≤ high) : RoundedWithin x q low high := by
  have value := rounds.toRat_eq finite
  exact ⟨finite, value, value ▸ below, value ▸ above⟩

theorem RoundedWithin.mono {x y : Float} {q r l u l' u' : ℚ} (hx : RoundedWithin x q l u)
    (hy : RoundedWithin y r l' u') (h : q ≤ r) : toRat x ≤ toRat y := by
  rw [hx.value, hy.value]
  exact nearest_mono h

section Fraction
variable {n i j : Nat}

/-- Less than all of at most 4096 parts is less than one by at least one part. -/
theorem cast_div_le (hj : j < n) (few : n ≤ maxParts) : (j : ℚ) / n ≤ 4095 / 4096 := by
  have hn : (0 : ℚ) < n := by exact_mod_cast Nat.zero_lt_of_lt hj
  have whole : (j : ℚ) + 1 ≤ n := by exact_mod_cast hj
  have most : (n : ℚ) ≤ 4096 := by exact_mod_cast few
  rw [div_le_div_iff₀ hn (by norm_num)]
  linarith

/-- Fractions are rounded, below one and at least zero. -/
theorem fraction_rounded (hj : j < n) (few : n ≤ maxParts) :
    RoundedWithin (fraction n j) (j / n) 0 (4095 / 4096) := by
  have : maxParts < 2 ^ 53 := by decide
  obtain ⟨hj', index⟩ := toRat_natCast (n := j) (by omega)
  obtain ⟨hn', count⟩ := toRat_natCast (n := n) (by omega)
  have hn : (0 : ℚ) < n := by exact_mod_cast Nat.zero_lt_of_lt hj
  have quotient := div_roundsTo hj' hn' (by rw [count]; exact hn.ne')
  rw [index, count] at quotient
  have most : nearest (4095 / 4096) = 4095 / 4096 := by
    have := nearest_scaled (n := 4095) (e := -12) (by norm_num) (by norm_num)
    norm_num at this
    exact this
  have nonneg := nearest_nonneg (q := (j : ℚ) / n) (by positivity)
  have below := (nearest_mono (cast_div_le hj few)).trans_eq most
  have small : nearest (j / n) ≤ toRat 1.0 := by
    rw [toRat_one.2]
    linarith
  exact roundedWithin quotient
    (quotient.isFinite_of_between (toRat_zero.2.trans_le nonneg) small) nonneg below

theorem fraction_mono (hij : i ≤ j) (hj : j < n) (few : n ≤ maxParts) :
    toRat (fraction n i) ≤ toRat (fraction n j) :=
  (fraction_rounded (hij.trans_lt hj) few).mono (fraction_rounded hj few) (by gcongr)

theorem abs_fraction_sub_le (hj : j < n) (few : n ≤ maxParts) :
    |toRat (fraction n j) - j / n| ≤ 2 ^ (-54 : Int) := by
  rw [(fraction_rounded hj few).value]
  refine abs_nearest_sub_le_of_lt (by norm_num) ?_
  rw [abs_of_nonneg (by positivity)]
  exact (cast_div_le hj few).trans_lt (by norm_num)

end Fraction

/-- An interval whose width does not overflow. -/
structure HasWidth (a b : Float) : Prop where
  less : a < b
  width : (b - a).isFinite

def endSpacing (a b : Float) : Int := spacing (max |toRat a| |toRat b|)

/-- Each of the parts is at least eight times the distance of doubles at the ends. -/
def IsCoarse (a b : Float) (n : Nat) : Prop :=
  8 * n * 2 ^ endSpacing a b ≤ toRat b - toRat a

namespace HasWidth
variable {a b : Float} {n i j : Nat}

theorem ends (h : HasWidth a b) : a.isFinite ∧ b.isFinite := (isFinite_of_sub h.width).symm

theorem toRat_lt (h : HasWidth a b) : toRat a < toRat b :=
  (lt_iff_toRat h.ends.1 h.ends.2).1 h.less

theorem toRat_pos (h : HasWidth a b) : 0 < toRat b - toRat a := sub_pos.2 h.toRat_lt

theorem toRat_width (h : HasWidth a b) : toRat (b - a) = nearest (toRat b - toRat a) :=
  (sub_roundsTo h.ends.2 h.ends.1).toRat_eq h.width

theorem toRat_width_nonneg (h : HasWidth a b) : 0 ≤ toRat (b - a) :=
  h.toRat_width ▸ nearest_nonneg h.toRat_pos.le

/-- The product with a fraction lies between zero and the width, although the width is rounded. -/
theorem offset_rounded (h : HasWidth a b) (hj : j < n) (few : n ≤ maxParts) :
    RoundedWithin (offset a b n j) (toRat (b - a) * toRat (fraction n j)) 0
      (toRat b - toRat a) := by
  obtain ⟨finite, -, nonneg, most⟩ := fraction_rounded hj few
  have product := mul_roundsTo h.width finite
  obtain ⟨k, exact⟩ : ∃ k : Int, toRat b - toRat a = k * _ :=
    exists_rat_sub (canonicalIn_toModel a) (canonicalIn_toModel b)
  have shrink : (2 : ℚ) ^ (-(Format.binary64.mantissaBits : Int)) ≤ 1 / 4096 := by
    rw [show (-(Format.binary64.mantissaBits : Int)) = -53 from rfl]
    norm_num
  obtain ⟨low, high⟩ := (nearestIn_mul_between exact nonneg (by linarith)).1 h.toRat_pos.le
  change 0 ≤ nearest (nearest _ * _) at low
  change nearest (nearest _ * _) ≤ _ at high
  rw [← h.toRat_width] at low high
  have smaller : toRat (b - a) * toRat (fraction n j) ≤ toRat (b - a) :=
    mul_le_of_le_one_right h.toRat_width_nonneg (by linarith)
  exact roundedWithin product (product.isFinite_of_between (toRat_zero.2.trans_le low)
    ((nearest_mono smaller).trans_eq (nearest_toRat h.width))) low high

theorem offset_mono (h : HasWidth a b) (hij : i ≤ j) (hj : j < n) (few : n ≤ maxParts) :
    toRat (offset a b n i) ≤ toRat (offset a b n j) := by
  refine (h.offset_rounded (hij.trans_lt hj) few).mono (h.offset_rounded hj few) ?_
  exact mul_le_mul_of_nonneg_left (fraction_mono hij hj few) h.toRat_width_nonneg

theorem value_rounded (h : HasWidth a b) (hj : j < n) (few : n ≤ maxParts) :
    RoundedWithin (dividingValue a b n j) (toRat a + toRat (offset a b n j)) (toRat a)
      (toRat b) := by
  obtain ⟨finite, -, nonneg, most⟩ := h.offset_rounded hj few
  have sum := add_roundsTo h.ends.1 finite
  have low : toRat a ≤ nearest (toRat a + toRat (offset a b n j)) :=
    (nearest_toRat h.ends.1).ge.trans (nearest_mono (by linarith))
  have high : nearest (toRat a + toRat (offset a b n j)) ≤ toRat b :=
    (nearest_mono (by linarith)).trans_eq (nearest_toRat h.ends.2)
  exact roundedWithin sum (sum.isFinite_of_between low high) low high

/-- Dividing values do not decrease. -/
theorem value_mono (h : HasWidth a b) (hij : i ≤ j) (hj : j < n) (few : n ≤ maxParts) :
    toRat (dividingValue a b n i) ≤ toRat (dividingValue a b n j) :=
  (h.value_rounded (hij.trans_lt hj) few).mono (h.value_rounded hj few)
    (add_le_add_right (h.offset_mono hij hj few) _)

theorem abs_ends_lt (h : HasWidth a b) : |toRat a| < 2 ^ (endSpacing a b + 53) ∧
    |toRat b| < 2 ^ (endSpacing a b + 53) := by
  have size : max |toRat a| |toRat b| ≠ 0 := by
    intro zero
    have ha := abs_nonpos_iff.1 ((le_max_left ..).trans_eq zero)
    have hb := abs_nonpos_iff.1 ((le_max_right ..).trans_eq zero)
    exact h.toRat_lt.ne (ha.trans hb.symm)
  have most := ((spacing_le_iff size).1 le_rfl).2
  rw [abs_of_nonneg ((abs_nonneg _).trans (le_max_left ..))] at most
  exact max_lt_iff.1 most

/-- The ends may be on different sides of zero, so the width may be twice as large as they are. -/
theorem width_lt (h : HasWidth a b) : toRat b - toRat a < 2 ^ (endSpacing a b + 54) := by
  obtain ⟨ha, hb⟩ := h.abs_ends_lt
  have double : (2 : ℚ) ^ (endSpacing a b + 54) = 2 * 2 ^ (endSpacing a b + 53) := by
    rw [show endSpacing a b + 54 = 1 + (endSpacing a b + 53) by ring, zpow_add₀ two_ne_zero,
      zpow_one]
  have := (abs_lt.1 ha).1
  have := (abs_lt.1 hb).2
  linarith

theorem abs_width_sub_le (h : HasWidth a b) :
    |toRat (b - a) - (toRat b - toRat a)| ≤ 2 ^ endSpacing a b := by
  have least : -1074 ≤ endSpacing a b := least_le_spacing _
  rw [h.toRat_width]
  exact abs_nearest_sub_le_of_lt (by omega) ((abs_of_pos h.toRat_pos).trans_lt h.width_lt)

theorem abs_width_le (h : HasWidth a b) : |toRat (b - a)| ≤ 2 ^ (endSpacing a b + 54) := by
  have least : -1074 ≤ endSpacing a b := least_le_spacing _
  rw [h.toRat_width]
  exact abs_nearest_le_zpow (by omega) ((abs_of_pos h.toRat_pos).trans_le h.width_lt.le)

/-- Three roundings move an offset by at most three times the distance of doubles at the ends. -/
theorem abs_offset_sub_le (h : HasWidth a b) (hj : j < n) (few : n ≤ maxParts) :
    |toRat (offset a b n j) - (toRat b - toRat a) * (j / n)| ≤ 3 * 2 ^ endSpacing a b := by
  obtain ⟨-, -, nonneg, most⟩ := fraction_rounded hj few
  have least : -1074 ≤ endSpacing a b := least_le_spacing _
  have unit : (0 : ℚ) < 2 ^ (endSpacing a b + 54) := by positivity
  have part : (0 : ℚ) ≤ j / n := by positivity
  have below : (j : ℚ) / n ≤ 1 := (cast_div_le hj few).trans (by norm_num)
  have product : |toRat (offset a b n j) - toRat (b - a) * toRat (fraction n j)| ≤
      2 ^ endSpacing a b := by
    rw [(h.offset_rounded hj few).value]
    refine abs_nearest_sub_le_of_lt (by omega) ?_
    rw [abs_mul, abs_of_nonneg nonneg]
    calc |toRat (b - a)| * toRat (fraction n j) ≤ 2 ^ (endSpacing a b + 54) * (4095 / 4096) := by
          gcongr
          exact h.abs_width_le
      _ < 2 ^ (endSpacing a b + 54) := by linarith
  -- the errors of the width and of the fraction are scaled by the other factor
  have scaled : |toRat (b - a) * (toRat (fraction n j) - j / n)| ≤ 2 ^ endSpacing a b :=
    calc _ = |toRat (b - a)| * |toRat (fraction n j) - j / n| := abs_mul ..
      _ ≤ 2 ^ (endSpacing a b + 54) * 2 ^ (-54 : Int) := by
        gcongr
        exacts [h.abs_width_le, abs_fraction_sub_le hj few]
      _ = 2 ^ endSpacing a b := by rw [← zpow_add₀ two_ne_zero, add_neg_cancel_right]
  have divided : |(toRat (b - a) - (toRat b - toRat a)) * (j / n)| ≤ 2 ^ endSpacing a b := by
    rw [abs_mul, abs_of_nonneg part]
    exact (mul_le_of_le_one_right (abs_nonneg _) below).trans h.abs_width_sub_le
  rw [abs_le] at product scaled divided ⊢
  constructor <;> linarith

/-- Four roundings move a value by less than four times the distance of doubles at the ends. -/
theorem abs_value_sub_lt (h : HasWidth a b) (hj : j < n) (few : n ≤ maxParts) :
    |toRat (dividingValue a b n j) - (toRat a + (toRat b - toRat a) * (j / n))| <
      4 * 2 ^ endSpacing a b := by
  have least : -1074 ≤ endSpacing a b := least_le_spacing _
  have half : (2 : ℚ) ^ (endSpacing a b - 1) < 2 ^ endSpacing a b :=
    zpow_lt_zpow_right₀ one_lt_two (by omega)
  have moved := h.abs_offset_sub_le hj few
  obtain ⟨-, -, low, high⟩ := h.offset_rounded hj few
  obtain ⟨ha, hb⟩ := h.abs_ends_lt
  have inside : |toRat a + toRat (offset a b n j)| < 2 ^ (endSpacing a b - 1 + 54) := by
    rw [show endSpacing a b - 1 + 54 = endSpacing a b + 53 by ring, abs_lt]
    rw [abs_lt] at ha hb
    constructor <;> linarith
  have sum : |toRat (dividingValue a b n j) - (toRat a + toRat (offset a b n j))| ≤
      2 ^ (endSpacing a b - 1) := by
    rw [(h.value_rounded hj few).value]
    exact abs_nearest_sub_le_of_lt (by omega) inside
  rw [abs_le] at moved sum
  rw [abs_lt]
  constructor <;> linarith

/-- The value of an index is less than half a part from its place. -/
theorem value_near_place (h : HasWidth a b) (coarse : IsCoarse a b n) (hj : j < n)
    (few : n ≤ maxParts) :
    toRat a + (j - 1 / 2) * ((toRat b - toRat a) / n) < toRat (dividingValue a b n j) ∧
      toRat (dividingValue a b n j) < toRat a + (j + 1 / 2) * ((toRat b - toRat a) / n) := by
  have hn : (0 : ℚ) < n := by exact_mod_cast Nat.zero_lt_of_lt hj
  have error := abs_lt.1 (h.abs_value_sub_lt hj few)
  have part : 8 * 2 ^ endSpacing a b ≤ (toRat b - toRat a) / n := by
    rw [le_div_iff₀ hn]
    exact (mul_right_comm ..).trans_le coarse
  rw [mul_div_left_comm] at error
  constructor <;> linarith

/-- Dividing values of a coarse gap increase. -/
theorem value_lt (h : HasWidth a b) (coarse : IsCoarse a b n) (hij : i < j) (hj : j < n)
    (few : n ≤ maxParts) :
    toRat (dividingValue a b n i) < toRat (dividingValue a b n j) := by
  have low := (h.value_near_place coarse (hij.trans hj) few).2
  have high := (h.value_near_place coarse hj few).1
  have next : (i : ℚ) + 1 / 2 ≤ j - 1 / 2 := by
    have : (i : ℚ) + 1 ≤ j := by exact_mod_cast hij
    linarith
  have part : 0 ≤ (toRat b - toRat a) / n := div_nonneg h.toRat_pos.le n.cast_nonneg
  linarith [mul_le_mul_of_nonneg_right next part]

/-- Dividing values of a coarse gap are inside of it. -/
theorem value_inside (h : HasWidth a b) (coarse : IsCoarse a b n) (hi : 0 < j) (hj : j < n)
    (few : n ≤ maxParts) : toRat a < toRat (dividingValue a b n j) ∧
      toRat (dividingValue a b n j) < toRat b := by
  obtain ⟨low, high⟩ := h.value_near_place coarse hj few
  have hn : (0 : ℚ) < n := by exact_mod_cast Nat.zero_lt_of_lt hj
  have part : 0 < (toRat b - toRat a) / n := div_pos h.toRat_pos hn
  have first : (1 : ℚ) ≤ j := by exact_mod_cast hi
  have last : (j : ℚ) + 1 ≤ n := by exact_mod_cast hj
  have whole : n * ((toRat b - toRat a) / n) = toRat b - toRat a := mul_div_cancel₀ _ hn.ne'
  constructor <;> nlinarith

end HasWidth

/-! ## Order of the values -/

theorem isChain_of_isChain {α : Type*} {R S T : α → α → Prop} {xs : List α}
    (h : ∀ a b, R a b → S a b → T a b) (hR : xs.IsChain R) (hS : xs.IsChain S) : xs.IsChain T := by
  rw [List.isChain_iff_getElem] at *
  exact fun i hi => h _ _ (hR i hi) (hS i hi)

/-- The values `xs` are finite, strictly increasing and strictly between `a` and `b`. -/
structure StrictlyInside (a b : Float) (xs : List Float) : Prop where
  finite : ∀ x ∈ xs, x.isFinite
  increasing : xs.Pairwise (· < ·)
  between : ∀ x ∈ xs, a < x ∧ x < b

theorem pairwise_with_ends {R : Float → Float → Prop} {a b : Float} {xs : List Float} :
    (a :: (xs ++ [b])).Pairwise R ↔ R a b ∧ xs.Pairwise R ∧ ∀ x ∈ xs, R a x ∧ R x b := by
  simp only [List.pairwise_cons, List.pairwise_append, List.mem_append, List.mem_singleton,
    forall_eq, or_imp, forall_and]
  tauto

/-- Being strictly inside is being strictly between neighbours. -/
theorem strictlyInside_iff {a b : Float} {xs : List Float} (h : a < b) :
    StrictlyInside a b xs ↔ (a :: (xs ++ [b])).IsChain (· < ·) := by
  rw [List.isChain_iff_pairwise, pairwise_with_ends]
  constructor
  · rintro ⟨-, increasing, between⟩
    exact ⟨h, increasing, between⟩
  · rintro ⟨-, increasing, between⟩
    exact ⟨fun x hx => isFinite_of_lt_of_lt (between x hx).1 (between x hx).2, increasing, between⟩

theorem StrictlyInside.sublist {a b : Float} {xs ys : List Float} (h : StrictlyInside a b ys)
    (sub : xs.Sublist ys) : StrictlyInside a b xs where
  finite x hx := h.finite x (sub.subset hx)
  increasing := h.increasing.sublist sub
  between x hx := h.between x (sub.subset hx)

/-! ## Divided gaps -/

section Gap
variable {p q : Point} {maxLength : Float}

theorem beyond_quotient (length : IsLength maxLength) (far : p.distance q > maxLength) :
    Beyond .positive 1 (p.distance q / maxLength) := by
  have quotient := (beyond_of_gt length.1 far).div length.1 length.toRat_pos length.toRat_pos.le
  rwa [div_self length.toRat_pos.ne', nearest_one] at quotient

/-- The number of parts is the quotient of the lengths, rounded up, up to a limit. -/
theorem parts_eq (length : IsLength maxLength) (far : p.distance q > maxLength) :
    0 < parts p q maxLength ∧ parts p q maxLength =
      if (p.distance q / maxLength).isFinite then
        min ⌈toRat (p.distance q / maxLength)⌉.toNat maxParts
      else maxParts := by
  have limit : 0 < maxParts ∧ maxParts < 2 ^ 64 - 1 := by decide
  unfold parts
  rcases beyond_quotient length far with infinite | ⟨finite, one⟩
  · have overflows := isFinite_of_infinity infinite
    rw [ceiling, toIntegral_of_not_isFinite .up overflows, toNat_toUInt64_of_infinity infinite,
      overflows, if_neg Bool.false_ne_true, Nat.min_eq_right limit.2.le]
    exact ⟨limit.1, rfl⟩
  · rw [if_pos finite]
    rw [signFactor, one_mul] at one
    obtain ⟨whole, value⟩ := toRat_ceiling finite
    have positive : 1 ≤ ⌈toRat (p.distance q / maxLength)⌉ := Int.one_le_ceil_iff.2 (by linarith)
    obtain ⟨n, hn⟩ := Int.eq_ofNat_of_zero_le (by omega : 0 ≤ ⌈toRat (p.distance q / maxLength)⌉)
    rw [hn, Int.cast_natCast] at value
    rw [toNat_toUInt64_eq_min whole value, hn, Int.toNat_natCast]
    omega

/-- The length of a vector is infinite as soon as its first component is. -/
theorem distance_of_overflow (hp : p.x.isFinite) (hq : q.x.isFinite)
    (wide : ¬ (q.x - p.x).isFinite) :
    (p.distance q).toModel.unpack = .infinity .positive := by
  obtain ⟨s, infinite⟩ :=
    (finite_or_infinity (sub_roundsTo hq hp).isNaN_eq_false).resolve_left wide
  have : (q.x - p.x).isInf := congrArg Float.Model.UnpackedFloat.isInf infinite
  rw [Point.distance, Number.length, if_pos (by rw [this, Bool.true_or])]
  rfl

/-! ### Values in a list -/

/-- The dividing values by their index. -/
theorem dividingValues_eq (p q : Point) (maxLength : Float) : dividingValues p q maxLength =
    (List.range' 1 (parts p q maxLength - 1)).map
      (dividingValue p.x q.x (parts p q maxLength)) := rfl

theorem forall_dividingValues {P : Float → Prop} (h : ∀ j, 0 < j → j < parts p q maxLength →
    P (dividingValue p.x q.x (parts p q maxLength) j)) :
    ∀ x ∈ dividingValues p q maxLength, P x := by
  rw [dividingValues_eq, List.forall_mem_map]
  intro j hj
  rw [List.mem_range'_1] at hj
  exact h j (by omega) (by omega)

theorem dividingValues_pairwise {R : Float → Float → Prop}
    (h : ∀ i j, i < j → j < parts p q maxLength →
      R (dividingValue p.x q.x (parts p q maxLength) i)
        (dividingValue p.x q.x (parts p q maxLength) j)) :
    (dividingValues p q maxLength).Pairwise R := by
  rw [dividingValues_eq, List.pairwise_map]
  refine (List.pairwise_lt_range' 1).imp_of_mem fun _ hj hij => h _ _ hij ?_
  rw [List.mem_range'_1] at hj
  omega

/-! ### Cuts -/

def cuts (p q : Point) (maxLength : Float) : List Float :=
  p.x :: (dividingValues p q maxLength ++ [q.x])

/-- The width of the gap does not overflow, and no two neighbours among its cuts coincide. -/
def KeepsApart (p q : Point) (maxLength : Float) : Prop :=
  (q.x - p.x).isFinite ∧ (cuts p q maxLength).IsChain fun a b => a != b

instance (p q : Point) (maxLength : Float) : Decidable (KeepsApart p q maxLength) :=
  inferInstanceAs (Decidable (_ ∧ _))

/-- The cuts of a gap whose width does not overflow are in order. -/
theorem cuts_ordered (h : HasWidth p.x q.x) (maxLength : Float) :
    (∀ x ∈ cuts p q maxLength, x.isFinite) ∧ (cuts p q maxLength).Pairwise (· ≤ ·) := by
  have few := parts_le p q maxLength
  have inside : ∀ x ∈ dividingValues p q maxLength, x.isFinite ∧ p.x ≤ x ∧ x ≤ q.x :=
    forall_dividingValues fun j _ hj => by
      obtain ⟨finite, -, low, high⟩ := h.value_rounded hj few
      exact ⟨finite, (le_iff_toRat h.ends.1 finite).2 low, (le_iff_toRat finite h.ends.2).2 high⟩
  have ordered : (dividingValues p q maxLength).Pairwise (· ≤ ·) :=
    dividingValues_pairwise fun i j hij hj =>
      (le_iff_toRat (h.value_rounded (hij.trans hj) few).finite (h.value_rounded hj few).finite).2
        (h.value_mono hij.le hj few)
  refine ⟨?_, pairwise_with_ends.2
    ⟨(le_iff_toRat h.ends.1 h.ends.2).2 h.toRat_lt.le, ordered, fun x hx => (inside x hx).2⟩⟩
  simp only [cuts, List.mem_cons, List.mem_append, List.not_mem_nil, or_false]
  rintro x (rfl | hx | rfl)
  exacts [h.ends.1, (inside x hx).1, h.ends.2]

/-- The dividing values of a coarse gap are strictly inside. -/
theorem strictlyInside_of_coarse (h : HasWidth p.x q.x)
    (coarse : IsCoarse p.x q.x (parts p q maxLength)) :
    StrictlyInside p.x q.x (dividingValues p q maxLength) := by
  have few := parts_le p q maxLength
  refine ⟨forall_dividingValues fun j _ hj => (h.value_rounded hj few).finite,
    dividingValues_pairwise fun i j hij hj => ?_, forall_dividingValues fun j positive hj => ?_⟩
  · rw [lt_iff_toRat (h.value_rounded (hij.trans hj) few).finite (h.value_rounded hj few).finite]
    exact h.value_lt coarse hij hj few
  · rw [lt_iff_toRat h.ends.1 (h.value_rounded hj few).finite,
      lt_iff_toRat (h.value_rounded hj few).finite h.ends.2]
    exact h.value_inside coarse positive hj few

/-- The gap between two points with finite ends in order, which are too far apart. -/
structure IsLongGap (p q : Point) (maxLength : Float) : Prop where
  low : p.x.isFinite
  high : q.x.isFinite
  less : p.x < q.x
  length : IsLength maxLength
  far : p.distance q > maxLength

instance (p q : Point) (maxLength : Float) : Decidable (IsLongGap p q maxLength) :=
  decidable_of_iff
    (p.x.isFinite ∧ q.x.isFinite ∧ p.x < q.x ∧ IsLength maxLength ∧ p.distance q > maxLength)
    ⟨fun ⟨low, high, less, length, far⟩ => ⟨low, high, less, length, far⟩,
      fun ⟨low, high, less, length, far⟩ => ⟨low, high, less, length, far⟩⟩

/-- The values are finite only if the width is. -/
theorem IsLongGap.isFinite_width (gap : IsLongGap p q maxLength)
    (finite : ∀ x ∈ dividingValues p q maxLength, x.isFinite) : (q.x - p.x).isFinite := by
  by_contra wide
  have infinite := div_infinity (distance_of_overflow gap.low gap.high wide) gap.length.1
    gap.length.toRat_pos
  have overflows := isFinite_of_infinity infinite
  have all := (parts_eq gap.length gap.far).2
  rw [if_neg (by rw [overflows]; exact Bool.false_ne_true)] at all
  have first : dividingValue p.x q.x (parts p q maxLength) 1 ∈ dividingValues p q maxLength := by
    rw [dividingValues_eq, all]
    exact List.mem_map_of_mem (List.mem_range'_1.2 (by decide))
  exact wide (isFinite_of_mul (isFinite_of_add (finite _ first)).2).1

/-- The dividing values of a long gap are strictly inside exactly if no two cuts coincide. -/
theorem IsLongGap.strictlyInside_iff (gap : IsLongGap p q maxLength) :
    StrictlyInside p.x q.x (dividingValues p q maxLength) ↔ KeepsApart p q maxLength := by
  constructor
  · intro inside
    refine ⟨gap.isFinite_width inside.finite, ?_⟩
    exact ((Curves.strictlyInside_iff gap.less).1 inside).imp fun _ _ less => (bne_of_lt less).1
  · rintro ⟨width, apart⟩
    have ordered := (cuts_ordered ⟨gap.less, width⟩ maxLength).2.isChain
    exact (Curves.strictlyInside_iff gap.less).2
      (isChain_of_isChain (fun _ _ => lt_of_le_of_bne) ordered apart)

/-- How a gap is divided: into as many parts as are needed, up to a limit, by values in order that
stay between the ends unless the width overflows. They are strictly between them and strictly
increasing exactly if neighbours do not coincide, as they never do in coarse parts. -/
structure IsDivided (p q : Point) (maxLength : Float) : Prop where
  length_add_one : (dividingValues p q maxLength).length + 1 =
    if (p.distance q / maxLength).isFinite then
      min ⌈toRat (p.distance q / maxLength)⌉.toNat maxParts
    else maxParts
  ordered : (q.x - p.x).isFinite →
    (∀ x ∈ cuts p q maxLength, x.isFinite) ∧ (cuts p q maxLength).Pairwise (· ≤ ·)
  strictlyInside_iff :
    StrictlyInside p.x q.x (dividingValues p q maxLength) ↔ KeepsApart p q maxLength
  apart_of_coarse : (q.x - p.x).isFinite → IsCoarse p.x q.x (parts p q maxLength) →
    KeepsApart p q maxLength

theorem IsLongGap.isDivided (gap : IsLongGap p q maxLength) : IsDivided p q maxLength where
  length_add_one := by
    obtain ⟨positive, count⟩ := parts_eq gap.length gap.far
    rw [← count, dividingValues_eq, List.length_map, List.length_range']
    exact Nat.sub_add_cancel positive
  ordered width := cuts_ordered ⟨gap.less, width⟩ maxLength
  strictlyInside_iff := gap.strictlyInside_iff
  apart_of_coarse width coarse :=
    gap.strictlyInside_iff.1 (strictlyInside_of_coarse ⟨gap.less, width⟩ coarse)

/-- There is nothing between neighbouring doubles. -/
example : ¬ KeepsApart ⟨1.0, 0.0⟩ ⟨.ofBits 0x3ff0000000000001, 1.0⟩ 0.5 := by decide +kernel

end Gap

end Curves

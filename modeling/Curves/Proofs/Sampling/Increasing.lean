import Curves.Proofs.Sampling.Division

/-!
# Increasing polylines

The samples of a refined polyline lie at the values of the grid and, between two valid neighbours,
at values that divide their gap. On an increasing grid all of them are in strict order exactly if
the values kept in each gap are strictly inside it. Gaps may fail this in two ways: their width
overflows, or their parts are so small that rounding takes neighbouring values to one double.
-/

namespace Curves
open Number

section Chains
variable {probe : Probe} {maxLength : Float}

theorem map_x_inserted (probe : Probe) (maxLength : Float) (a b : Sample) :
    ((inserted probe maxLength a b).filter (·.isValid)).map Sample.x =
      keptValues probe maxLength a.point b.point := by
  have points := congrArg (List.map Point.x) (map_point_inserted probe maxLength a b)
  rw [List.map_map, List.map_map] at points
  have taken : Point.x ∘ probe.point = id := funext fun x => probe.x_take x
  rwa [taken, List.map_id] at points

/-- Refined samples increase exactly if the kept values of each gap are strictly inside it. -/
theorem refinedAfter_increasing_iff {a : Sample} {samples : List Sample}
    (valid : ∀ s ∈ samples, s.isValid)
    (increasing : (a :: samples).IsChain fun s t => s.x < t.x) :
    (a.x :: ((refinedAfter probe maxLength a samples).filter (·.isValid)).map Sample.x).IsChain
        (· < ·) ↔
      (a :: samples).IsChain fun s t =>
        StrictlyInside s.x t.x (keptValues probe maxLength s.point t.point) := by
  induction samples generalizing a with
  | nil => simp [refinedAfter]
  | cons b samples ih =>
    obtain ⟨hb, valid⟩ := List.forall_mem_cons.1 valid
    obtain ⟨less, increasing⟩ := List.isChain_cons_cons.1 increasing
    rw [List.isChain_cons_cons, refinedAfter, List.filter_append, List.map_append,
      map_x_inserted, List.filter_cons_of_pos hb, List.map_cons, ← List.cons_append,
      List.isChain_split, List.cons_append, ih valid increasing]
    exact and_congr_left fun _ => (strictlyInside_iff less).symm

/-- The valid samples of a refined sequence lie at increasing values exactly if those in each gap
do, between its ends. -/
theorem refined_increasing_iff {samples : List Sample} (valid : ∀ s ∈ samples, s.isValid)
    (increasing : samples.IsChain fun s t => s.x < t.x) :
    ((((refined probe maxLength samples).filter (·.isValid)).map Sample.point).map
        Point.x).Pairwise (· < ·) ↔
      (samples.map Sample.point).IsChain fun p q =>
        StrictlyInside p.x q.x (keptValues probe maxLength p q) := by
  have same : Point.x ∘ Sample.point = Sample.x := rfl
  rw [← List.isChain_iff_pairwise, List.map_map, same, List.isChain_map Sample.point]
  cases samples with
  | nil => simp [refined]
  | cons a samples =>
    obtain ⟨ha, valid⟩ := List.forall_mem_cons.1 valid
    rw [refined, List.filter_cons_of_pos ha, List.map_cons]
    exact refinedAfter_increasing_iff valid increasing

/-- A near gap keeps no values, and what a gap keeps is some of what divides it. -/
theorem keptValues_inside {p q : Point} (length : IsLength maxLength) (less : p.x < q.x)
    (apart : p.distance q > maxLength → KeepsApart p q maxLength) :
    StrictlyInside p.x q.x (keptValues probe maxLength p q) := by
  by_cases far : p.distance q > maxLength
  · obtain ⟨high, low⟩ := isFinite_of_sub (apart far).1
    have gap : IsLongGap p q maxLength := ⟨low, high, less, length, far⟩
    exact (gap.strictlyInside_iff.2 (apart far)).sublist (keptValues_sublist ..)
  · have none : keptValues probe maxLength p q = [] := if_neg far
    rw [strictlyInside_iff less, none]
    simpa using less

end Chains

/-- On an increasing grid the `x` values of the refined polyline are increasing exactly if the kept
values of each gap lie strictly inside it, as they do if no two of its cuts coincide. -/
theorem refinedPolyline_increasing {sampling : Sampling} {xs : List Float} {maxStep : Float}
    (grid : sampling.grid = .ok xs) (increasing : xs.Pairwise (· < ·)) (length : IsLength maxStep)
    (curve : Float → Float) :
    ∃ plain fine, sampling.polyline curve = .ok plain ∧
      sampling.refinedPolyline curve maxStep = .ok fine ∧
      ((fine.points.map Point.x).Pairwise (· < ·) ↔ plain.validPoints.IsChain fun p q =>
        StrictlyInside p.x q.x (keptValues (sampling.probe curve) maxStep p q)) ∧
      ((plain.validPoints.IsChain fun p q => p.distance q > maxStep → KeepsApart p q maxStep) →
        (fine.points.map Point.x).Pairwise (· < ·)) := by
  refine ⟨_, _, polyline_of_grid grid curve, Segmentation.refinedPolyline_of_grid length grid curve,
    ?_⟩
  rw [validPoints_eq]
  have samples : (xs.map (sampling.probe curve).take).Pairwise fun s t => s.x < t.x := by
    simpa [List.pairwise_map] using increasing
  have ordered := (samples.filter (·.isValid)).isChain
  have iff := @refined_increasing_iff (sampling.probe curve) maxStep _
    (fun s hs => (List.mem_filter.1 hs).2) ordered
  refine ⟨iff, fun apart => iff.2 ?_⟩
  rw [List.isChain_map] at apart ⊢
  exact isChain_of_isChain (fun s t => keptValues_inside length) ordered apart

/-- For every length that may be asked for, a longer gap is divided into as many parts as are
needed, up to a limit. Unless its width overflows the values are in order and do not leave it, and
they are strictly inside it and strictly increasing exactly if no two cuts coincide. So the refined
polyline of an increasing grid has increasing values exactly if the kept values of each gap lie
strictly inside it. -/
theorem gaps_divided {maxStep : Float} (length : IsLength maxStep) :
    (∀ p q, IsLongGap p q maxStep → IsDivided p q maxStep) ∧
    ∀ (sampling : Sampling) (curve : Float → Float) (xs : List Float),
      sampling.grid = .ok xs → xs.Pairwise (· < ·) →
      ∃ plain fine, sampling.polyline curve = .ok plain ∧
        sampling.refinedPolyline curve maxStep = .ok fine ∧
        ((fine.points.map Point.x).Pairwise (· < ·) ↔ plain.validPoints.IsChain fun p q =>
          StrictlyInside p.x q.x (keptValues (sampling.probe curve) maxStep p q)) ∧
        ((plain.validPoints.IsChain fun p q => p.distance q > maxStep → KeepsApart p q maxStep) →
          (fine.points.map Point.x).Pairwise (· < ·)) :=
  ⟨fun _ _ gap => gap.isDivided, fun _ curve _ grid increasing =>
    refinedPolyline_increasing grid increasing length curve⟩

/-- The ends of the unit interval on the branches of a curve with a pole between them. -/
theorem gaps_divided_reciprocal : IsDivided ⟨0.0, -2.0⟩ ⟨1.0, 2.0⟩ 1.5 ∧
    ∃ plain fine,
      Segmentation.unitInterval.sampling.polyline Segmentation.reciprocal = .ok plain ∧
      Segmentation.unitInterval.sampling.refinedPolyline Segmentation.reciprocal 1.5 = .ok fine ∧
      (fine.points.map Point.x).Pairwise (· < ·) := by
  have gap : IsLongGap ⟨0.0, -2.0⟩ ⟨1.0, 2.0⟩ 1.5 := by decide +kernel
  obtain ⟨gaps, polylines⟩ := gaps_divided gap.length
  obtain ⟨plain, fine, sampled, refined, -, increasing⟩ := polylines _ Segmentation.reciprocal _
    Segmentation.unitInterval_grid (by decide +kernel)
  refine ⟨gaps _ _ gap, plain, fine, sampled, refined, increasing ?_⟩
  obtain rfl := Except.ok.inj
    ((polyline_of_grid Segmentation.unitInterval_grid Segmentation.reciprocal).symm.trans sampled)
  decide +kernel

/-- A point as far left as its opposite is right. -/
def leftmost : Point := ⟨.ofBits 0xffe0000000000000, 0.0⟩

/-- The distance of this point from its opposite overflows. -/
def rightmost : Point := ⟨.ofBits 0x7fe0000000000000, 0.0⟩

/-- The width of this gap overflows, and the values that divide it are infinite. -/
theorem remote_not_inside : leftmost.y.isFinite ∧ rightmost.y.isFinite ∧
    IsLongGap leftmost rightmost 1.0 ∧
      ¬ StrictlyInside leftmost.x rightmost.x (dividingValues leftmost rightmost 1.0) := by
  have gap : IsLongGap leftmost rightmost 1.0 := by decide +kernel
  refine ⟨by decide +kernel, by decide +kernel, gap, fun inside => ?_⟩
  exact absurd (gap.isFinite_width inside.finite) (by decide +kernel)

end Curves

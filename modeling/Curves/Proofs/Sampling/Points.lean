import Curves.Proofs.Sampling.Refinement

/-!
# Points of polylines

What the points of a polyline are and how its tally counts the samples behind them. A polyline has a
point for each value of its grid. A refined one has the valid ones among these, and between two of
them valid samples at values that divide the gap.

Main statements:

* `Refines.sublist`, `Refines.eq_of_near`: what every refinement keeps;
* `polylines_accounted`: the points and the tallies of both polylines.
-/

namespace Curves

def Probe.point (probe : Probe) (x : Float) : Point := (probe.take x).point

/-- `points` are those of `base` in order and, between two neighbours that are too far apart, points
of the curve at some of the values that divide the gap, in their order. -/
inductive Refines (probe : Probe) (maxLength : Float) : (base points : List Point) → Prop
  | nil : Refines probe maxLength [] []
  | single (p : Point) : Refines probe maxLength [p] [p]
  | gap {p q : Point} {base points : List Point} (xs : List Float) :
      xs.Sublist (dividingValues p q maxLength) → xs.length ≤ 4095 →
      (xs ≠ [] → p.distance q > maxLength) → Refines probe maxLength (q :: base) (q :: points) →
      Refines probe maxLength (p :: q :: base) (p :: (xs.map probe.point ++ q :: points))

namespace Refines
variable {probe : Probe} {maxLength : Float} {base points : List Point}

/-- Refining adds points only. -/
theorem sublist (h : Refines probe maxLength base points) : base.Sublist points := by
  induction h with
  | nil => exact .slnil
  | single p => exact .refl _
  | gap xs _ _ _ _ ih => exact (ih.trans (List.sublist_append_right ..)).cons_cons _

/-- Where no gap is long, nothing is added. -/
theorem eq_of_near (h : Refines probe maxLength base points)
    (near : base.IsChain fun p q => ¬ p.distance q > maxLength) : points = base := by
  induction h with
  | nil => rfl
  | single p => rfl
  | gap xs _ _ far _ ih =>
    rw [List.isChain_cons_cons] at near
    have none : xs = [] := by
      by_contra some
      exact near.1 (far some)
    rw [none, List.map_nil, List.nil_append, ih near.2]

end Refines

theorem parts_le (p q : Point) (maxLength : Float) : parts p q maxLength ≤ maxParts :=
  Nat.min_le_right ..

/-- At most 4095 samples are inserted into one gap. -/
theorem length_dividingValues_le (p q : Point) (maxLength : Float) :
    (dividingValues p q maxLength).length ≤ 4095 := by
  simp only [dividingValues, List.length_map, List.length_range']
  exact Nat.sub_le_sub_right (parts_le p q maxLength) 1

section Refined
variable {probe : Probe} {maxLength : Float}

/-- The values at which valid samples are inserted between two points. -/
def keptValues (probe : Probe) (maxLength : Float) (p q : Point) : List Float :=
  if p.distance q > maxLength then
    (dividingValues p q maxLength).filter fun x => (probe.take x).isValid
  else []

/-- The samples that are kept in a gap. -/
theorem map_point_inserted (probe : Probe) (maxLength : Float) (a b : Sample) :
    ((inserted probe maxLength a b).filter (·.isValid)).map Sample.point =
      (keptValues probe maxLength a.point b.point).map probe.point := by
  unfold inserted keptValues
  split
  · rw [List.filter_map, List.map_map]
    rfl
  · rfl

theorem keptValues_sublist (probe : Probe) (maxLength : Float) (p q : Point) :
    (keptValues probe maxLength p q).Sublist (dividingValues p q maxLength) := by
  unfold keptValues
  split
  · exact List.filter_sublist
  · exact List.nil_sublist _

theorem far_of_keptValues {p q : Point} (some : keptValues probe maxLength p q ≠ []) :
    p.distance q > maxLength := by
  by_contra near
  exact some (if_neg near)

/-- The refined samples are those of the base with others in the long gaps. -/
theorem refines_refinedAfter {a : Sample} {samples : List Sample} (ha : a.isValid)
    (valid : ∀ s ∈ samples, s.isValid) :
    Refines probe maxLength (a.point :: samples.map Sample.point)
      (a.point ::
        ((refinedAfter probe maxLength a samples).filter (·.isValid)).map Sample.point) := by
  induction samples generalizing a with
  | nil => exact .single _
  | cons b samples ih =>
    obtain ⟨hb, valid⟩ := List.forall_mem_cons.1 valid
    have divides := keptValues_sublist probe maxLength a.point b.point
    rw [refinedAfter, List.filter_append, List.map_append, map_point_inserted,
      List.filter_cons_of_pos hb, List.map_cons]
    exact .gap _ divides (divides.length_le.trans (length_dividingValues_le ..)) far_of_keptValues
      (ih hb valid)

/-- The valid samples of a refined sequence refine the sequence. -/
theorem refines_refined {samples : List Sample} (valid : ∀ s ∈ samples, s.isValid) :
    Refines probe maxLength (samples.map Sample.point)
      (((refined probe maxLength samples).filter (·.isValid)).map Sample.point) := by
  cases samples with
  | nil => exact .nil
  | cons a samples =>
    obtain ⟨ha, valid⟩ := List.forall_mem_cons.1 valid
    rw [refined, List.filter_cons_of_pos ha]
    exact refines_refinedAfter ha valid

/-- The samples inserted behind `a`. -/
def insertedAfter (probe : Probe) (maxLength : Float) (a : Sample) : List Sample → List Sample
  | [] => []
  | b :: rest => inserted probe maxLength a b ++ insertedAfter probe maxLength b rest

/-- The refined samples are the inserted ones and those of the base, in another order. -/
theorem refinedAfter_perm (a : Sample) (samples : List Sample) :
    (refinedAfter probe maxLength a samples).Perm
      (insertedAfter probe maxLength a samples ++ samples) := by
  induction samples generalizing a with
  | nil => exact .refl _
  | cons b samples ih =>
    rw [refinedAfter, insertedAfter, List.append_assoc]
    exact ((ih b).cons b |>.trans List.perm_middle.symm).append_left _

/-- The samples of a grid and those inserted in its gaps are the invalid ones on the grid and the
refined sequence of the others. -/
theorem invalid_append_perm {all more taken : List Sample}
    (perm : taken.Perm (all.filter (·.isValid) ++ more)) :
    (all.filter (!·.isValid) ++ taken).Perm (all ++ more) := by
  have parts := (List.filter_append_perm (·.isValid) all).symm.trans List.perm_append_comm
  refine (perm.append_left _).trans ?_
  rw [← List.append_assoc]
  exact (parts.append_right more).symm

end Refined

/-! ## Tallies -/

namespace Tally

theorem guarded_le_total (samples : List Sample) :
    (ofSamples samples).guarded ≤ (ofSamples samples).total := List.countP_le_length

theorem clamped_le_total (samples : List Sample) :
    (ofSamples samples).clamped ≤ (ofSamples samples).total := List.countP_le_length

/-- Each sample is valid or counted as invalid. -/
theorem valid_add_invalid (samples : List Sample) :
    (samples.filter (·.isValid)).length + (ofSamples samples).invalid =
      (ofSamples samples).total := by
  simpa [ofSamples, List.countP_eq_length_filter] using
    (List.length_eq_countP_add_countP Sample.isValid (l := samples)).symm

end Tally

/-- The counts of a tally that cannot exceed the number of samples. -/
structure Tally.IsBounded (tally : Tally) : Prop where
  guarded_le : tally.guarded ≤ tally.total
  clamped_le : tally.clamped ≤ tally.total

theorem Tally.isBounded_ofSamples (samples : List Sample) : (Tally.ofSamples samples).IsBounded :=
  ⟨guarded_le_total samples, clamped_le_total samples⟩

/-! ## Polylines -/

/-- `line` has a point for each value of the grid `xs`, in order, and each is counted. -/
structure Polyline.IsSampled (line : Polyline) (probe : Probe) (xs : List Float) : Prop where
  points_eq : line.points = xs.map probe.point
  total_eq : line.tally.total = line.points.length
  invalid_eq : line.tally.invalid = line.points.countP fun p => !p.y.isFinite
  bounded : line.tally.IsBounded

/-- `line` has the points `base` and others in the gaps between them, all of them valid, and what
is counted and not among the points is invalid. -/
structure Polyline.IsRefined (line : Polyline) (probe : Probe) (maxStep : Float)
    (base : List Point) : Prop where
  valid : ∀ p ∈ line.points, p.y.isFinite
  total_eq : line.points.length + line.tally.invalid = line.tally.total
  sublist : base.Sublist line.points
  eq_of_near : (base.IsChain fun p q => ¬ p.distance q > maxStep) → line.points = base
  refines : Refines probe maxStep base line.points
  bounded : line.tally.IsBounded

theorem validPoints_eq (samples : List Sample) (tally : Tally) :
    (Polyline.mk (samples.map Sample.point) tally).validPoints =
      (samples.filter (·.isValid)).map Sample.point := by
  rw [Polyline.validPoints, List.filter_map]
  rfl

section Lines
variable {sampling : Sampling} {curve : Float → Float} {xs : List Float}

/-- A polyline has a sample for each value of the grid. -/
theorem polyline_of_grid (grid : sampling.grid = .ok xs) (curve : Float → Float) :
    sampling.polyline curve = .ok
      (let samples := xs.map (sampling.probe curve).take
       { points := samples.map Sample.point, tally := .ofSamples samples }) := by
  simp [Sampling.polyline, grid, bind, Except.bind, pure, Except.pure]

/-- The polyline of a grid is sampled at its values. -/
theorem isSampled (probe : Probe) (xs : List Float) :
    (Polyline.mk ((xs.map probe.take).map Sample.point)
      (.ofSamples (xs.map probe.take))).IsSampled probe xs where
  points_eq := by
    rw [List.map_map]
    rfl
  total_eq := by simp [Tally.ofSamples]
  invalid_eq := by
    rw [List.countP_map]
    rfl
  bounded := Tally.isBounded_ofSamples _

/-- The refined polyline is the base with valid samples in its gaps. -/
theorem isRefined (probe : Probe) (maxStep : Float) {base taken : List Sample}
    (h : taken = refined probe maxStep (base.filter (·.isValid))) :
    (Polyline.mk ((taken.filter (·.isValid)).map Sample.point)
      (.ofSamples (base.filter (!·.isValid) ++ taken))).IsRefined probe maxStep
        ((base.filter (·.isValid)).map Sample.point) := by
  have refines : Refines probe maxStep ((base.filter (·.isValid)).map Sample.point)
      ((taken.filter (·.isValid)).map Sample.point) :=
    h ▸ refines_refined fun s hs => (List.mem_filter.1 hs).2
  refine ⟨?_, ?_, refines.sublist, refines.eq_of_near, refines, Tally.isBounded_ofSamples _⟩
  · intro p hp
    obtain ⟨s, hs, rfl⟩ := List.mem_map.1 hp
    exact (List.mem_filter.1 hs).2
  · have dropped : (base.filter (!·.isValid)).filter (·.isValid) = [] := by
      simp
    have counted := Tally.valid_add_invalid (base.filter (!·.isValid) ++ taken)
    rw [List.filter_append, dropped, List.nil_append] at counted
    rwa [List.length_map]

/-- On every grid the plain polyline has one point for each value and counts them. For every length
that may be asked for, the refined one has the valid points among these and others in the gaps
between them, and what is counted and not among its points is invalid. -/
theorem polylines_accounted (grid : sampling.grid = .ok xs) (curve : Float → Float) :
    ∃ plain, sampling.polyline curve = .ok plain ∧ plain.IsSampled (sampling.probe curve) xs ∧
      ∀ maxStep, IsLength maxStep → ∃ fine, sampling.refinedPolyline curve maxStep = .ok fine ∧
        fine.IsRefined (sampling.probe curve) maxStep plain.validPoints := by
  refine ⟨_, polyline_of_grid grid curve, isSampled _ xs, fun maxStep length => ?_⟩
  refine ⟨_, Segmentation.refinedPolyline_of_grid length grid curve, ?_⟩
  rw [validPoints_eq]
  exact isRefined _ maxStep rfl

end Lines

/-- The pole of the curve is a value that divides the gap between the ends of the unit interval, so
its sample is counted and dropped. -/
theorem polylines_accounted_reciprocal : ∃ plain fine,
    Segmentation.unitInterval.sampling.polyline Segmentation.reciprocal = .ok plain ∧
    plain.IsSampled (Segmentation.unitInterval.sampling.probe Segmentation.reciprocal) [0.0, 1.0] ∧
    Segmentation.unitInterval.sampling.refinedPolyline Segmentation.reciprocal 2.5 = .ok fine ∧
    fine.IsRefined (Segmentation.unitInterval.sampling.probe Segmentation.reciprocal) 2.5
      plain.validPoints ∧ fine.tally.invalid = 1 := by
  obtain ⟨plain, sampled, counts, refinements⟩ :=
    polylines_accounted Segmentation.unitInterval_grid Segmentation.reciprocal
  obtain ⟨fine, refined, keeps⟩ := refinements 2.5 (by decide +kernel)
  refine ⟨plain, fine, sampled, counts, refined, keeps, ?_⟩
  have one : (Segmentation.unitInterval.sampling.refinedPolyline Segmentation.reciprocal 2.5).map
      (·.tally.invalid) = .ok 1 := by decide +kernel
  rw [refined] at one
  exact Except.ok.inj one

end Curves

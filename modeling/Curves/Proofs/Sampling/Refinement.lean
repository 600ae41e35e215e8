import Curves.Proofs.Sampling.Segments

/-!
# Drawings of continuous curves

A curve without invalid samples and without jumps on the grid is drawn as one segment, which is its
refined polyline.
-/

namespace Curves

theorem takeThrough_eq_map {probe : Probe} {xs : List Float}
    (valid : ∀ s ∈ takeThrough probe xs, s.isValid) : takeThrough probe xs = xs.map probe.take := by
  induction xs with
  | nil => rfl
  | cons x xs ih => grind [takeThrough]

namespace Segmentation
variable {plan : Segmentation} {probe : Probe} {curve : Float → Float}

def Near (plan : Segmentation) (a b : Sample) : Prop :=
  ¬ a.point.distance b.point > plan.maxJump

/-- Where nothing is cut, the marks in a gap are the samples that refining inserts. -/
theorem marksBetween_eq_inserted {a b : Sample} (near : plan.Near a b)
    (valid : ∀ s ∈ takenSamples (marksBetween probe plan a b), s.isValid) :
    marksBetween probe plan a b = (inserted probe plan.maxStep a b).map .taken := by
  simp only [marksBetween, inserted] at valid ⊢
  rw [if_neg near] at valid ⊢
  split
  · rw [if_pos ‹_›, takenSamples_map_taken] at valid
    rw [takeThrough_eq_map valid]
  · rfl

/-- Where nothing is cut, the marks are the samples of the refined polyline. -/
theorem marks_eq_refinedAfter {a : Sample} {xs : List Float}
    (near : (a :: xs.map probe.take).IsChain plan.Near)
    (valid : ∀ s ∈ takenSamples (marks probe plan (some a) xs), s.isValid) :
    marks probe plan (some a) xs =
      (refinedAfter probe plan.maxStep a (xs.map probe.take)).map .taken := by
  induction xs generalizing a with
  | nil => rfl
  | cons x xs ih =>
    rw [List.map_cons, List.isChain_cons_cons] at near
    rw [marks_cons] at valid ⊢
    have hx : (probe.take x).isValid := valid _ (by simp)
    simp only [hx, if_true, Option.elim_some, Sample.valid?] at valid ⊢
    rw [takenSamples_append, takenSamples_cons_taken, List.forall_mem_append,
      List.forall_mem_cons] at valid
    rw [marksBetween_eq_inserted near.1 valid.1, ih near.2 valid.2.2, List.map_cons, refinedAfter,
      List.map_append, List.map_cons]

/-- Without invalid samples and without jumps on the grid, what is met are the samples of the
refined polyline. -/
theorem marks_eq_refined {xs : List Float} (near : (xs.map probe.take).IsChain plan.Near)
    (valid : ∀ s ∈ takenSamples (marks probe plan none xs), s.isValid) :
    marks probe plan none xs = (refined probe plan.maxStep (xs.map probe.take)).map .taken := by
  cases xs with
  | nil => rfl
  | cons x xs =>
    rw [marks_cons] at valid ⊢
    have hx : (probe.take x).isValid := valid _ (by simp)
    simp only [hx, if_true, Option.elim_none, Sample.valid?, List.nil_append,
      takenSamples_cons_taken, List.forall_mem_cons] at valid ⊢
    rw [marks_eq_refinedAfter near valid.2, List.map_cons, refined, List.map_cons]

theorem length_le_length_refined (probe : Probe) (maxLength : Float) (samples : List Sample) :
    samples.length ≤ (refined probe maxLength samples).length := by
  have after (a : Sample) (samples : List Sample) :
      samples.length ≤ (refinedAfter probe maxLength a samples).length := by
    induction samples generalizing a with
    | nil => exact Nat.le_refl 0
    | cons b samples ih => grind [refinedAfter]
  cases samples with
  | nil => exact Nat.le_refl 0
  | cons a samples => simpa [refined] using after a samples

theorem refinedPolyline_of_grid {sampling : Sampling} {maxStep : Float} {xs : List Float}
    (hstep : IsLength maxStep) (grid : sampling.grid = .ok xs) (curve : Float → Float) :
    sampling.refinedPolyline curve maxStep = .ok
      (let base := xs.map (sampling.probe curve).take
       let taken := refined (sampling.probe curve) maxStep (base.filter (·.isValid))
       { points := (taken.filter (·.isValid)).map Sample.point
         tally := .ofSamples (base.filter (!·.isValid) ++ taken) }) := by
  have step := (checkLength_eq_ok_iff .maxStep maxStep).2 hstep
  simp [Sampling.refinedPolyline, step, grid, bind, Except.bind, pure, Except.pure]

/-- A curve of which no sample is invalid, and whose neighbours on the grid are never too far apart,
is drawn in one segment. It has the points and the tally of the refined polyline. -/
theorem drawing_eq_refinedPolyline {xs : List Float} (hstep : IsLength plan.maxStep)
    (hjump : IsLength plan.maxJump) (grid : plan.sampling.grid = .ok xs) (two : 2 ≤ xs.length)
    (near : (xs.map (plan.sampling.probe curve).take).IsChain fun a b =>
      ¬ a.point.distance b.point > plan.maxJump) :
    ∃ d line, plan.drawing curve = .ok d ∧
      plan.sampling.refinedPolyline curve plan.maxStep = .ok line ∧
        (d.tally.invalid = 0 → d.segments = [line.points] ∧ d.tally = line.tally) := by
  refine ⟨plan.drawn curve xs, _, drawing_eq_ok_iff.2 ⟨hstep, hjump, xs, grid, rfl⟩,
    refinedPolyline_of_grid hstep grid curve, fun none_invalid => ?_⟩
  have valid : ∀ s ∈ (plan.visits curve xs).map Visit.sample, s.isValid := by
    simpa using List.countP_eq_zero.1 none_invalid
  -- the samples of the grid are among the visits, so the polyline keeps all of them
  have base : ∀ s ∈ xs.map (plan.sampling.probe curve).take, s.isValid := by
    rw [← visitsFrom_onGrid plan _ none xs]
    exact fun s hs => valid s ((List.filter_sublist.map _).subset hs)
  have long := length_le_length_refined (plan.sampling.probe curve) plan.maxStep
    (xs.map (plan.sampling.probe curve).take)
  rw [← takenSamples_marks] at valid
  have along := marks_eq_refined near valid
  have kept := List.filter_eq_self.2 base
  have dropped : (xs.map (plan.sampling.probe curve).take).filter (!·.isValid) = [] := by
    simpa using base
  simp only [kept, dropped, List.nil_append]
  rw [along, takenSamples_map_taken] at valid
  generalize refined (plan.sampling.probe curve) plan.maxStep
    (xs.map (plan.sampling.probe curve).take) = samples at *
  have drawable : 2 ≤ samples.length := by
    rw [List.length_map] at long
    omega
  have one_run : runs (plan.withJumps (plan.visits curve xs)) = [samples] := by
    rw [withJumps_visits, along, runs_map_taken (List.length_pos_iff.1 (by omega)) valid]
  refine ⟨?_, ?_⟩
  · simp [drawn, one_run, drawable, List.filter_eq_self.2 valid]
  · rw [drawn, ← takenSamples_marks, along, takenSamples_map_taken]

def square : Float → Float := (Formula.ofSource "x²").eval

theorem drawing_eq_refinedPolyline_square : ∃ d line, unitInterval.drawing square = .ok d ∧
    unitInterval.sampling.refinedPolyline square unitInterval.maxStep = .ok line ∧
      d.segments = [line.points] ∧ d.tally = line.tally := by
  have valid : (unitInterval.drawn square [0.0, 1.0]).tally.invalid = 0 := by decide +kernel
  have near : ([0.0, 1.0].map (unitInterval.sampling.probe square).take).IsChain fun a b =>
      ¬ a.point.distance b.point > unitInterval.maxJump := by decide +kernel
  obtain ⟨d, line, h, refined, same⟩ := drawing_eq_refinedPolyline unitInterval_lengths.1
    unitInterval_lengths.2 unitInterval_grid (by decide) near
  obtain rfl := Except.ok.inj ((unitInterval_drawing square).symm.trans h)
  exact ⟨_, line, h, refined, same valid⟩

end Segmentation

end Curves

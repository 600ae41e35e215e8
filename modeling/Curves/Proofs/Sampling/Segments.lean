import Curves.Formula
import Curves.Proofs.Number.Exact
import Curves.Proofs.Sampling.Visits

/-!
# Segments of a drawing

The segments of a drawing are the runs of the visits along the grid, less those of a single sample.
Two valid neighbours are in different runs exactly if an invalid sample was taken between them or
if they are neighbours on the grid that are too far apart. Samples in gaps are not held to the
longest jump, so segments can contain jumps.
-/

namespace Curves

/-- Lengths that can be asked for. -/
def IsLength (value : Float) : Prop := value.isFinite ∧ value > 0.0

instance (value : Float) : Decidable (IsLength value) := inferInstanceAs (Decidable (_ ∧ _))

theorem checkLength_eq_ok_iff (extent : Extent) (value : Float) :
    checkLength extent value = .ok () ↔ IsLength value := by
  simp only [checkLength, IsLength]
  split <;> simp_all

theorem IsLength.toRat_pos {value : Float} (length : IsLength value) : 0 < Number.toRat value := by
  have positive := (Number.lt_iff_toRat Number.toRat_zero.1 length.1).1 length.2
  rwa [Number.toRat_zero.2] at positive

theorem length_sub_length_filter {runs : List (List Sample)} (nonempty : [] ∉ runs) :
    runs.length - (runs.filter fun run => 2 ≤ run.length).length =
      runs.countP (·.length = 1) := by
  induction runs with
  | nil => rfl
  | cons run runs ih =>
    have := List.length_filter_le (fun run : List Sample => decide (2 ≤ run.length)) runs
    have hne : run ≠ [] := fun h => nonempty (h ▸ List.mem_cons_self)
    have := List.length_pos_iff.2 hne
    grind

theorem length_flatten_filter {runs : List (List Sample)} (nonempty : [] ∉ runs) :
    (runs.filter fun run => 2 ≤ run.length).flatten.length + runs.countP (·.length = 1) =
      runs.flatten.length := by
  induction runs with
  | nil => rfl
  | cons run runs ih =>
    have hne : run ≠ [] := fun h => nonempty (h ▸ List.mem_cons_self)
    have := List.length_pos_iff.2 hne
    grind

theorem length_drawable (W : List Visit) :
    (drawable W).length = (Tally.ofSamples (W.map Visit.sample)).total -
      (Tally.ofSamples (W.map Visit.sample)).invalid := by
  induction W with
  | nil => rfl
  | cons u W ih =>
    have := Tally.invalid_le_total (W.map Visit.sample)
    grind [drawable, Tally.ofSamples, Visit.isValid]

namespace Segmentation

/-- What is drawn of a curve on the grid `xs`. -/
def drawn (plan : Segmentation) (curve : Float → Float) (xs : List Float) : Drawing :=
  let found := runs (plan.withJumps (plan.visits curve xs))
  { segments := (found.filter fun run => 2 ≤ run.length).map (·.map Sample.point)
    dropped := found.countP (·.length = 1)
    tally := .ofSamples ((plan.visits curve xs).map Visit.sample) }

variable {plan : Segmentation} {curve : Float → Float} {d : Drawing}

theorem takenSamples_marks (xs : List Float) :
    takenSamples (marks (plan.sampling.probe curve) plan none xs) =
      (plan.visits curve xs).map Visit.sample := by
  rw [← withJumps_visits, takenSamples_withJumps]

/-- A curve is drawn exactly if both lengths are accepted and there is a grid. -/
theorem drawing_eq_ok_iff : plan.drawing curve = .ok d ↔
    IsLength plan.maxStep ∧ IsLength plan.maxJump ∧
      ∃ xs, plan.sampling.grid = .ok xs ∧ plan.drawn curve xs = d := by
  have step := checkLength_eq_ok_iff .maxStep plan.maxStep
  have jump := checkLength_eq_ok_iff .maxJump plan.maxJump
  simp only [drawing, bind, Except.bind]
  cases hstep : checkLength .maxStep plan.maxStep with
  | error problem => simp [← step, hstep]
  | ok =>
    cases hjump : checkLength .maxJump plan.maxJump with
    | error problem => simp [← jump, hjump]
    | ok =>
      rw [← step, ← jump, hstep, hjump]
      cases plan.sampling.grid with
      | error problem => simp
      | ok xs =>
        simp [drawn, withJumps_visits, takenSamples_marks, length_sub_length_filter,
          nil_notMem_runs, pure, Except.pure]

/-! ## Runs and segments -/

/-- `runs` are the valid samples of the visits `W`, in order, and a run ends between two of them
exactly if an invalid sample was taken between them or they are neighbours that jump. -/
structure Splits (plan : Segmentation) (W : List Visit) (runs : List (List Sample)) : Prop where
  nonempty : [] ∉ runs
  complete : runs.flatten = drawable W
  ends_iff : ∀ A u M v B, W = A ++ u :: (M ++ v :: B) → u.isValid → v.isValid →
    (∀ w ∈ M, ¬ w.isValid) →
      ((∃ first second, runs = first ++ second ∧ first.flatten = drawable A ++ [u.sample]) ↔
        M ≠ [] ∨ plan.Jumps u v)

/-- Runs end where an invalid sample is taken or neighbours jump, and nowhere else. -/
theorem splits_runs (plan : Segmentation) (W : List Visit) :
    plan.Splits W (runs (plan.withJumps W)) where
  nonempty := nil_notMem_runs _
  complete := by rw [flatten_runs, validSamples_withJumps]
  ends_iff := by
    rintro A u M v B rfl hu hv invalid
    obtain ⟨before, marks, after, split, same, cuts, marked⟩ := withJumps_split plan A u v B invalid
    rw [split, ← same, ends_between_iff hu hv cuts, marked]

/-- The segments of a drawing are the runs of its visits that have at least two samples, and the
runs of one sample are dropped. So each valid sample is drawn once and in order unless it is
dropped, and no other sample is drawn. -/
theorem drawing_splits (h : plan.drawing curve = .ok d) : ∃ xs runs,
    plan.sampling.grid = .ok xs ∧ plan.Splits (plan.visits curve xs) runs ∧
      d.segments = (runs.filter fun run => 2 ≤ run.length).map (·.map Sample.point) ∧
      d.dropped = runs.countP (·.length = 1) ∧
      d.tally = .ofSamples ((plan.visits curve xs).map Visit.sample) ∧
      ((plan.visits curve xs).filter (·.onGrid)).map Visit.sample =
        xs.map (plan.sampling.probe curve).take ∧
      (∀ segment ∈ d.segments, ∀ p ∈ segment, p.y.isFinite) ∧
      d.size + d.dropped = d.tally.total - d.tally.invalid := by
  obtain ⟨-, -, xs, grid, rfl⟩ := drawing_eq_ok_iff.1 h
  have splits := splits_runs plan (plan.visits curve xs)
  refine ⟨xs, _, grid, splits, rfl, rfl, rfl, visitsFrom_onGrid plan _ none xs, ?_, ?_⟩
  · intro segment hsegment p hp
    obtain ⟨run, hrun, rfl⟩ := List.mem_map.1 hsegment
    obtain ⟨s, hs, rfl⟩ := List.mem_map.1 hp
    have : s ∈ drawable (plan.visits curve xs) := by
      rw [← splits.complete]
      exact List.mem_flatten_of_mem (List.mem_of_mem_filter hrun) hs
    obtain ⟨u, hu, rfl⟩ := List.mem_map.1 this
    exact (List.mem_filter.1 hu).2
  · rw [Drawing.size, drawn, ← List.map_flatten, List.length_map,
      length_flatten_filter splits.nonempty, splits.complete, length_drawable]

/-- A segmentation of the unit interval with nothing but its ends on the grid. -/
def unitInterval : Segmentation where
  sampling := { low := 0.0, high := 1.0, resolution := 1, spacing := .uniform }

theorem unitInterval_grid : unitInterval.sampling.grid = .ok [0.0, 1.0] := by decide +kernel

theorem unitInterval_lengths : IsLength unitInterval.maxStep ∧ IsLength unitInterval.maxJump := by
  decide +kernel

theorem unitInterval_drawing (curve : Float → Float) :
    unitInterval.drawing curve = .ok (unitInterval.drawn curve [0.0, 1.0]) :=
  drawing_eq_ok_iff.2
    ⟨unitInterval_lengths.1, unitInterval_lengths.2, _, unitInterval_grid, rfl⟩

def reciprocal : Float → Float := (Formula.ofSource "1/(x-0.5)").eval

theorem drawing_splits_reciprocal : ∃ d, unitInterval.drawing reciprocal = .ok d ∧ ∃ xs runs,
    unitInterval.sampling.grid = .ok xs ∧
      unitInterval.Splits (unitInterval.visits reciprocal xs) runs ∧
      d.segments = (runs.filter fun run => 2 ≤ run.length).map (·.map Sample.point) ∧
      d.size + d.dropped = d.tally.total - d.tally.invalid := by
  have h := unitInterval_drawing reciprocal
  obtain ⟨xs, runs, grid, splits, segments, -, -, -, -, size⟩ := drawing_splits h
  exact ⟨_, h, xs, runs, grid, splits, segments, size⟩

/-! ## Jumps in segments -/

/-- A relation holds along all segments exactly if it holds between visits that are not cut. -/
theorem segments_isChain_iff {R : Point → Point → Prop} {xs : List Float} :
    (∀ segment ∈ (plan.drawn curve xs).segments, segment.IsChain R) ↔
      (plan.visits curve xs).IsChain fun u v =>
        u.isValid → v.isValid → ¬ plan.Jumps u v → R u.sample.point v.sample.point := by
  rw [← withJumps_isChain_iff (R := fun a b => R a.point b.point), ← runs_isChain_iff]
  simp only [drawn, List.forall_mem_map, List.mem_filter, and_imp, List.isChain_map]
  refine forall₂_congr fun run _ => ⟨fun chain => ?_, fun chain _ => chain⟩
  by_cases long : 2 ≤ run.length
  · exact chain (decide_eq_true long)
  · match run with
    | [] | [_] => simp
    | _ :: _ :: _ => simp at long

/-- What is checked of neighbours on the grid and not of other visits. -/
theorem short_of_not_jumps_iff (number : plan.maxJump.isNaN = false) {u v : Visit}
    (hu : u.isValid) (hv : v.isValid) : (¬ plan.Jumps u v → u.distance v ≤ plan.maxJump) ↔
      if u.onGrid ∧ v.onGrid then (u.distance v).isNaN = false
      else u.distance v ≤ plan.maxJump := by
  by_cases grid : u.onGrid ∧ v.onGrid
  · simp only [Jumps, hu, hv, grid, true_and, and_self, if_true]
    rw [Number.le_iff_not_gt number]
    refine ⟨fun drawn => ?_, fun comparable short => ⟨comparable, short⟩⟩
    by_cases long : u.distance v > plan.maxJump
    · exact Number.isNaN_eq_false_of_gt long
    · exact (drawn long).1
  · simp [Jumps, grid]

/-- Segments draw no gap longer than the longest jump exactly if no gap beside a sample that was
taken in a gap is longer, and the distance of neighbours on the grid is a number. -/
theorem segments_short_iff (h : plan.drawing curve = .ok d) : ∃ xs, plan.sampling.grid = .ok xs ∧
    ((∀ segment ∈ d.segments, segment.IsChain fun p q => p.distance q ≤ plan.maxJump) ↔
      (plan.visits curve xs).IsChain fun u v => u.isValid → v.isValid →
        if u.onGrid ∧ v.onGrid then (u.distance v).isNaN = false
        else u.distance v ≤ plan.maxJump) := by
  obtain ⟨-, jump, xs, grid, rfl⟩ := drawing_eq_ok_iff.1 h
  have number := Number.isNaN_eq_false_of_isFinite jump.1
  refine ⟨xs, grid, segments_isChain_iff.trans (List.IsChain.iff fun u v => ?_)⟩
  exact forall₂_congr fun hu hv => short_of_not_jumps_iff number hu hv

/-- The gap around the pole lies between two samples taken in a gap. -/
theorem reciprocal_not_short : ¬ ∀ segment ∈ (unitInterval.drawn reciprocal [0.0, 1.0]).segments,
    segment.IsChain fun p q => p.distance q ≤ unitInterval.maxJump := by
  decide +kernel

theorem segments_short_iff_reciprocal : ∃ d xs, unitInterval.drawing reciprocal = .ok d ∧
    unitInterval.sampling.grid = .ok xs ∧
      (¬ ∀ segment ∈ d.segments, segment.IsChain fun p q =>
        p.distance q ≤ unitInterval.maxJump) ∧
      ¬ (unitInterval.visits reciprocal xs).IsChain fun u v => u.isValid → v.isValid →
        if u.onGrid ∧ v.onGrid then (u.distance v).isNaN = false
        else u.distance v ≤ unitInterval.maxJump := by
  have h := unitInterval_drawing reciprocal
  obtain ⟨xs, grid, short⟩ := segments_short_iff h
  exact ⟨_, xs, h, grid, reciprocal_not_short, mt short.2 reciprocal_not_short⟩

/-- The gap around a pole is drawn if it lies between two samples taken in a gap. -/
theorem reciprocal_drawn_across_pole : ∃ d, unitInterval.drawing reciprocal = .ok d ∧
    ¬ ∀ segment ∈ d.segments, segment.IsChain fun p q =>
      p.distance q ≤ unitInterval.maxJump :=
  ⟨_, unitInterval_drawing reciprocal, reciprocal_not_short⟩

end Segmentation

end Curves

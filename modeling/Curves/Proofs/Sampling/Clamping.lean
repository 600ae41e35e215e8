import Curves.Proofs.Number.Arithmetic
import Curves.Proofs.Sampling.Points
import Curves.Sampling.LookupTable

/-!
# Clamping

A finite value outside the range becomes the end that is nearer, so what is clamped lies in the
range, and clamping counts as a change exactly for finite values outside. A range may have infinite
ends. As long as there is a finite value in it clamped values are finite; a range with none, from an
infinity to itself, makes all of them infinite.
-/

namespace Curves
open Number

namespace Bounds

def holds (b : Bounds) (y : Float) : Bool := b.low ≤ y && y ≤ b.high

def HoldsFinite (b : Bounds) : Prop := ∃ y : Float, y.isFinite ∧ b.holds y

section Clamp
variable {b : Bounds} {y : Float}

theorem holds_iff : b.holds y ↔ b.low ≤ y ∧ y ≤ b.high := by
  simp [holds]

theorem isValid_iff : b.isValid ↔
    b.low.isNaN = false ∧ b.high.isNaN = false ∧ ¬ b.low > b.high := by
  simp [isValid, and_assoc]

theorem low_le_high (valid : b.isValid) : b.low ≤ b.high := by
  obtain ⟨low, high, ordered⟩ := isValid_iff.1 valid
  exact (le_iff_not_gt high).2 ⟨low, ordered⟩

/-- Clamping compares with one end and then with the other. -/
theorem clamp_eq (valid : b.isValid) (y : Float) :
    b.clamp y = if y < b.low then b.low else if y > b.high then b.high else y := by
  unfold clamp
  split
  · exact if_neg (isValid_iff.1 valid).2.2
  · rfl

/-- A clamped number is in the range. -/
theorem holds_clamp (valid : b.isValid) (number : y.isNaN = false) : b.holds (b.clamp y) := by
  obtain ⟨low, high, -⟩ := isValid_iff.1 valid
  rw [clamp_eq valid, holds_iff]
  split_ifs with below above
  · exact ⟨le_self low, low_le_high valid⟩
  · exact ⟨low_le_high valid, le_self high⟩
  · exact ⟨(le_iff_not_gt number).2 ⟨low, below⟩, (le_iff_not_gt high).2 ⟨number, above⟩⟩

/-- Clamping changes what lies outside. -/
theorem clamp_bne (valid : b.isValid) (hy : y.isFinite) : (b.clamp y != y) = !b.holds y := by
  obtain ⟨low, high, -⟩ := isValid_iff.1 valid
  have number := isNaN_eq_false_of_isFinite hy
  have inside : b.holds y ↔ ¬ y < b.low ∧ ¬ y > b.high := by
    rw [holds_iff, le_iff_not_gt number, le_iff_not_gt high]
    tauto
  rw [clamp_eq valid]
  split_ifs with below above
  · have outside := Bool.eq_false_iff.2 fun h => (inside.1 h).1 below
    rw [(bne_of_lt below).2, outside]
    rfl
  · have outside := Bool.eq_false_iff.2 fun h => (inside.1 h).2 above
    rw [(bne_of_lt above).1, outside]
    rfl
  · have same : (y == y) = true := (beq_iff_toRat hy hy).2 rfl
    rw [inside.2 ⟨below, above⟩, bne, same]

/-- Clamped values are finite if some finite value lies in the range. -/
theorem isFinite_clamp_iff (valid : b.isValid) (hy : y.isFinite) :
    (b.clamp y).isFinite ↔ b.HoldsFinite := by
  constructor
  · exact fun finite => ⟨_, finite, holds_clamp valid (isNaN_eq_false_of_isFinite hy)⟩
  · rintro ⟨z, hz, inside⟩
    obtain ⟨above, below⟩ := holds_iff.1 inside
    have number := isNaN_eq_false_of_isFinite hz
    have high := (isValid_iff.1 valid).2.1
    rw [clamp_eq valid]
    split_ifs with small large
    · exact isFinite_of_between hy hz (le_of_lt small) ((le_iff_not_gt number).1 above).2
    · exact isFinite_of_between hz hy below (not_gt_of_lt large)
    · exact hy

end Clamp

end Bounds

/-! ## Samples -/

namespace Probe

/-- The value at `x` before it is clamped: the substitute near zero, or that of the curve. -/
def unclamped (probe : Probe) (x : Float) : Float :=
  (probe.guard.bind (·.substitute? x)).getD (probe.curve x)

@[simp] theorem raw_take (probe : Probe) (x : Float) : (probe.take x).raw = probe.unclamped x := by
  unfold take unclamped
  split <;> simp [*]

/-- What clamping into a range does to samples: a finite value gets into the range, and stays finite
exactly if some finite value lies there; other values are kept. -/
structure Clamps (probe : Probe) (b : Bounds) : Prop where
  holds : ∀ x, (probe.unclamped x).isFinite → b.holds (probe.take x).y
  isValid_iff : ∀ x, (probe.unclamped x).isFinite → ((probe.take x).isValid ↔ b.HoldsFinite)
  kept : ∀ x, (probe.unclamped x).isFinite = false → (probe.take x).y = probe.unclamped x

section Clamps
variable {probe : Probe} {b : Bounds}

theorem y_of_isFinite (clamp : probe.clamp = some b) {x : Float}
    (finite : (probe.unclamped x).isFinite) : (probe.take x).y = b.clamp (probe.unclamped x) := by
  rw [y_take, raw_take, clampFinite, clamp]
  exact if_pos finite

theorem y_of_not_isFinite (clamp : probe.clamp = some b) {x : Float}
    (infinite : (probe.unclamped x).isFinite = false) : (probe.take x).y = probe.unclamped x := by
  rw [y_take, raw_take, clampFinite, clamp]
  exact if_neg (Bool.eq_false_iff.1 infinite)

/-- Every probe with a valid range clamps as it should. -/
theorem clamps (clamp : probe.clamp = some b) (valid : b.isValid) : probe.Clamps b where
  holds x finite := by
    rw [y_of_isFinite clamp finite]
    exact Bounds.holds_clamp valid (isNaN_eq_false_of_isFinite finite)
  isValid_iff x finite := by
    rw [Sample.isValid, y_of_isFinite clamp finite, Bounds.isFinite_clamp_iff valid finite]
  kept x := y_of_not_isFinite clamp

/-- A sample counts as clamped if its value was finite and outside the range. -/
theorem isClamped_take (clamp : probe.clamp = some b) (valid : b.isValid) (x : Float) :
    (probe.take x).isClamped = ((probe.unclamped x).isFinite && !b.holds (probe.unclamped x)) := by
  rw [Sample.isClamped, raw_take]
  cases finite : (probe.unclamped x).isFinite with
  | false => rfl
  | true => rw [y_of_isFinite clamp finite, Bounds.clamp_bne valid finite]

end Clamps

end Probe

/-! ## The values that are sampled -/

namespace Probe

/-- The values that divide the long gaps between neighbours among `xs`. -/
def gapValues (probe : Probe) (maxLength : Float) : List Float → List Float
  | x :: y :: rest =>
    (if (probe.point x).distance (probe.point y) > maxLength then
      dividingValues (probe.point x) (probe.point y) maxLength
    else []) ++ probe.gapValues maxLength (y :: rest)
  | _ => []

/-- The values at which a refined polyline on the grid `xs` takes samples: those of the grid, and
those that divide the gaps between neighbours among the valid ones. -/
def refinedValues (probe : Probe) (maxLength : Float) (xs : List Float) : List Float :=
  xs ++ probe.gapValues maxLength (xs.filter fun x => (probe.take x).isValid)

section Values
variable {probe : Probe} {maxLength : Float}

theorem insertedAfter_take (x : Float) (xs : List Float) :
    insertedAfter probe maxLength (probe.take x) (xs.map probe.take) =
      (probe.gapValues maxLength (x :: xs)).map probe.take := by
  induction xs generalizing x with
  | nil => rfl
  | cons y xs ih =>
    rw [List.map_cons, insertedAfter, gapValues, ih, List.map_append,
      apply_ite (List.map probe.take)]
    rfl

/-- A refined sequence has the samples at the given values and at those in their gaps. -/
theorem refined_perm (xs : List Float) : (refined probe maxLength (xs.map probe.take)).Perm
    (xs.map probe.take ++ (probe.gapValues maxLength xs).map probe.take) := by
  cases xs with
  | nil => exact .nil
  | cons x xs =>
    rw [← insertedAfter_take, List.map_cons, refined, List.cons_append]
    apply List.Perm.cons
    exact (refinedAfter_perm _ _).trans List.perm_append_comm

/-- The samples that a refined polyline counts are those at its values. -/
theorem refinedSamples_perm (xs : List Float) :
    ((xs.map probe.take).filter (!·.isValid) ++
      refined probe maxLength ((xs.map probe.take).filter (·.isValid))).Perm
        ((probe.refinedValues maxLength xs).map probe.take) := by
  have valid : (xs.map probe.take).filter (·.isValid) =
      (xs.filter fun x => (probe.take x).isValid).map probe.take := by
    rw [List.filter_map]
    rfl
  rw [refinedValues, List.map_append]
  apply invalid_append_perm
  rw [valid]
  exact refined_perm _

end Values

end Probe

theorem takeThrough_taken {probe : Probe} {xs : List Float} :
    ∀ s ∈ takeThrough probe xs, probe.take s.x = s := by
  induction xs with
  | nil => grind [takeThrough]
  | cons x xs ih => grind [takeThrough, Probe.x_take]

/-- The samples of visits are those at their values. -/
theorem visitsFrom_taken {probe : Probe} {plan : Segmentation} {last : Option Sample}
    {xs : List Float} : ∀ u ∈ plan.visitsFrom probe last xs, probe.take u.sample.x = u.sample := by
  induction xs generalizing last with
  | nil => exact fun u hu => absurd hu List.not_mem_nil
  | cons x xs ih =>
    intro u hu
    rw [Segmentation.visitsFrom, List.mem_append, List.mem_cons] at hu
    obtain hu | rfl | hu := hu
    · cases last with
      | none => cases hu
      | some a =>
        obtain ⟨s, hs, rfl⟩ := List.mem_map.1 hu
        unfold Segmentation.gap at hs
        split_ifs at hs
        · exact takeThrough_taken s hs
        · cases hs
    · exact congrArg probe.take (probe.x_take x)
    · exact ih u hu

/-- The values at which a drawing on the grid `xs` takes samples. -/
def Segmentation.visitedValues (plan : Segmentation) (curve : Float → Float) (xs : List Float) :
    List Float :=
  (plan.visits curve xs).map fun u => u.sample.x

theorem Segmentation.map_take_visitedValues (plan : Segmentation) (curve : Float → Float)
    (xs : List Float) : (plan.visitedValues curve xs).map (plan.sampling.probe curve).take =
      (plan.visits curve xs).map Visit.sample := by
  rw [visitedValues, List.map_map]
  exact List.map_congr_left visitsFrom_taken

def Tabulation.abscissas (plan : Tabulation) : List Float :=
  (List.range plan.size.toNat).map fun i =>
    tableAbscissa plan.size.toNat plan.width i.toUInt64

/-! ## What is counted -/

/-- Samples are taken at `xs`: every output is read off one of them, all of them are counted, and
counted as clamped are those whose value was finite and outside the range. -/
structure Probe.Accounts {α : Type} (probe : Probe) (b : Bounds) (read : Sample → α)
    (xs : List Float) (outputs : List α) (tally : Tally) : Prop where
  outputs_mem : ∀ o ∈ outputs, ∃ x ∈ xs, o = read (probe.take x)
  total_eq : tally.total = xs.length
  clamped_eq : tally.clamped = xs.countP fun x =>
    (probe.unclamped x).isFinite && !b.holds (probe.unclamped x)

theorem Probe.accounts_of_perm {α : Type} {probe : Probe} {b : Bounds}
    (clamp : probe.clamp = some b) (valid : b.isValid) {read : Sample → α} {samples : List Sample}
    {xs : List Float} (perm : samples.Perm (xs.map probe.take)) {outputs : List α} {tally : Tally}
    (outputs_mem : ∀ o ∈ outputs, ∃ s ∈ samples, o = read s)
    (total : tally.total = samples.length)
    (clamped : tally.clamped = samples.countP (·.isClamped)) :
    probe.Accounts b read xs outputs tally where
  outputs_mem := by
    intro o ho
    obtain ⟨s, hs, rfl⟩ := outputs_mem o ho
    obtain ⟨x, hx, rfl⟩ := List.mem_map.1 (perm.mem_iff.1 hs)
    exact ⟨x, hx, rfl⟩
  total_eq := by rw [total, perm.length_eq, List.length_map]
  clamped_eq := by
    rw [clamped, perm.countP_eq, List.countP_map]
    apply List.countP_congr
    intro x _
    rw [← isClamped_take clamp valid]
    rfl

/-! ## Accepted samplings -/

theorem checkClamp_eq_ok_iff {b : Bounds} : checkClamp (some b) = .ok () ↔ b.isValid := by
  unfold checkClamp
  dsimp only
  split <;> simp [*]

/-- Outputs that are read off samples at `xs`, taken by a probe whose range was accepted, and their
tally. -/
structure ClampedOutputs {α : Type} (probe : Probe) (b : Bounds) (read : Sample → α)
    (xs : List Float) (outputs : List α) (tally : Tally) : Prop where
  clamps : probe.Clamps b
  accounts : probe.Accounts b read xs outputs tally

section Accepted
variable {sampling : Sampling} {curve : Float → Float} {b : Bounds}

/-- A grid is given only if the checks accept the sampling. -/
theorem check_of_grid {xs : List Float} (grid : sampling.grid = .ok xs) :
    sampling.check = .ok () := by
  cases h : sampling.check with
  | ok => rfl
  | error problem =>
    rw [Sampling.grid, h] at grid
    cases grid

theorem checkClamp_of_grid {xs : List Float} (grid : sampling.grid = .ok xs) :
    checkClamp sampling.clamp = .ok () := by
  have checked := check_of_grid grid
  unfold Sampling.check at checked
  split_ifs at checked
  exact checked

theorem valid_of_grid {xs : List Float} (clamp : sampling.clamp = some b)
    (grid : sampling.grid = .ok xs) : b.isValid :=
  checkClamp_eq_ok_iff.1 (clamp ▸ checkClamp_of_grid grid)

/-- The samples of a polyline are accounted for. -/
theorem polyline_clamped {line : Polyline} (clamp : sampling.clamp = some b)
    (h : sampling.polyline curve = .ok line) : ∃ xs, sampling.grid = .ok xs ∧
      ClampedOutputs (sampling.probe curve) b Sample.point xs line.points line.tally := by
  cases grid : sampling.grid with
  | error problem =>
    rw [Sampling.polyline, grid] at h
    cases h
  | ok xs =>
    have valid := valid_of_grid clamp grid
    rw [polyline_of_grid grid] at h
    obtain rfl := Except.ok.inj h
    refine ⟨xs, rfl, Probe.clamps clamp valid,
      Probe.accounts_of_perm clamp valid (.refl _) ?_ rfl rfl⟩
    intro p hp
    obtain ⟨s, hs, rfl⟩ := List.mem_map.1 hp
    exact ⟨s, hs, rfl⟩

/-- The samples of a refined polyline are accounted for. -/
theorem refinedPolyline_clamped {line : Polyline} {maxStep : Float}
    (clamp : sampling.clamp = some b) (h : sampling.refinedPolyline curve maxStep = .ok line) :
    ∃ xs, sampling.grid = .ok xs ∧ ClampedOutputs (sampling.probe curve) b Sample.point
      ((sampling.probe curve).refinedValues maxStep xs) line.points line.tally := by
  cases length : checkLength .maxStep maxStep with
  | error problem =>
    rw [Sampling.refinedPolyline, length] at h
    cases h
  | ok =>
    cases grid : sampling.grid with
    | error problem =>
      rw [Sampling.refinedPolyline, length, grid] at h
      cases h
    | ok xs =>
      have valid := valid_of_grid clamp grid
      rw [Segmentation.refinedPolyline_of_grid ((checkLength_eq_ok_iff _ _).1 length) grid] at h
      obtain rfl := Except.ok.inj h
      refine ⟨xs, rfl, Probe.clamps clamp valid,
        Probe.accounts_of_perm clamp valid (Probe.refinedSamples_perm xs) ?_ rfl rfl⟩
      intro p hp
      obtain ⟨s, hs, rfl⟩ := List.mem_map.1 hp
      exact ⟨s, List.mem_append_right _ (List.mem_of_mem_filter hs), rfl⟩

/-- The samples of a drawing are accounted for. -/
theorem drawing_clamped {plan : Segmentation} {drawing : Drawing}
    (clamp : plan.sampling.clamp = some b) (h : plan.drawing curve = .ok drawing) :
    ∃ xs, plan.sampling.grid = .ok xs ∧ ClampedOutputs (plan.sampling.probe curve) b Sample.point
      (plan.visitedValues curve xs) drawing.segments.flatten drawing.tally := by
  obtain ⟨-, -, xs, grid, rfl⟩ := Segmentation.drawing_eq_ok_iff.1 h
  have valid := valid_of_grid clamp grid
  have samples : ((plan.visits curve xs).map Visit.sample).Perm
      ((plan.visitedValues curve xs).map (plan.sampling.probe curve).take) := by
    rw [plan.map_take_visitedValues]
  refine ⟨xs, grid, Probe.clamps clamp valid,
    Probe.accounts_of_perm clamp valid samples ?_ rfl rfl⟩
  intro p hp
  obtain ⟨segment, hsegment, hp⟩ := List.mem_flatten.1 hp
  obtain ⟨run, hrun, rfl⟩ := List.mem_map.1 hsegment
  obtain ⟨s, hs, rfl⟩ := List.mem_map.1 hp
  refine ⟨s, ?_, rfl⟩
  have drawn : s ∈ drawable (plan.visits curve xs) := by
    rw [← Segmentation.validSamples_withJumps, ← flatten_runs]
    exact List.mem_flatten_of_mem (List.mem_of_mem_filter hrun) hs
  exact (List.filter_sublist.map _).subset drawn

def Tabulation.probe (plan : Tabulation) (curve : Float → Float) : Probe where
  curve := curve
  clamp := plan.clamp
  guard := plan.guard

theorem Tabulation.table_of_check {plan : Tabulation} (size : 2 ≤ plan.size.toNat)
    (checked : plan.check = .ok ()) (curve : Float → Float) : plan.table curve = .ok
      { width := plan.width
        values := ((plan.samples curve).map Sample.entry).toArray
        tally := tableTally (plan.samples curve)
        two_le_size := by simpa using size } := by
  rw [Tabulation.table, dif_neg (by omega), checked]
  rfl

/-- What is known if a curve is tabulated. -/
theorem Tabulation.table_eq_ok {plan : Tabulation} {table : LookupTable}
    (h : plan.table curve = .ok table) : plan.size.toNat ≤ maxGridSize ∧ IsLength plan.width ∧
      checkClamp plan.clamp = .ok () ∧ table.width = plan.width ∧
      table.values = ((plan.samples curve).map Sample.entry).toArray ∧
      table.tally = tableTally (plan.samples curve) := by
  by_cases small : plan.size.toNat < 2
  · rw [Tabulation.table, dif_pos small] at h
    cases h
  cases checked : plan.check with
  | error problem =>
    rw [Tabulation.table, dif_neg small, checked] at h
    cases h
  | ok =>
    rw [Tabulation.table_of_check (by omega) checked] at h
    obtain rfl := Except.ok.inj h
    unfold check at checked
    split_ifs at checked with large
    · cases checked
    cases width : checkLength .width plan.width with
    | error problem =>
      rw [width] at checked
      cases checked
    | ok =>
      rw [width] at checked
      exact ⟨not_lt.1 large, (checkLength_eq_ok_iff _ _).1 width, checked, rfl, rfl, rfl⟩

/-- The samples of a table are accounted for. -/
theorem table_clamped {plan : Tabulation} {table : LookupTable} (clamp : plan.clamp = some b)
    (h : plan.table curve = .ok table) : ClampedOutputs (plan.probe curve) b Sample.entry
      plan.abscissas table.values.toList table.tally := by
  obtain ⟨-, -, checked, -, values, tally⟩ := Tabulation.table_eq_ok h
  rw [clamp, checkClamp_eq_ok_iff] at checked
  have samples : (plan.samples curve).Perm (plan.abscissas.map (plan.probe curve).take) := by
    rw [Tabulation.abscissas, List.map_map]
    rfl
  refine ⟨Probe.clamps clamp checked,
    Probe.accounts_of_perm clamp checked samples ?_ (tally ▸ rfl) (tally ▸ rfl)⟩
  intro v hv
  rw [values] at hv
  obtain ⟨s, hs, rfl⟩ := List.mem_map.1 hv
  exact ⟨s, hs, rfl⟩

/-- Whatever is sampled with an accepted range, in any of four ways: finite values get into the
range and stay finite if the range holds any finite value, other values are kept. Samples are taken
at the values of the grid; at those and at the values that divide its gaps; at the values that a
drawing visits; at the abscissas of a table. All of them are counted, and counted as clamped are
exactly those whose value was finite and outside the range. -/
theorem outputs_clamped (b : Bounds) (curve : Float → Float) :
    (∀ (sampling : Sampling) line, sampling.clamp = some b → sampling.polyline curve = .ok line →
      ∃ xs, sampling.grid = .ok xs ∧
        ClampedOutputs (sampling.probe curve) b Sample.point xs line.points line.tally) ∧
    (∀ (sampling : Sampling) maxStep line, sampling.clamp = some b →
      sampling.refinedPolyline curve maxStep = .ok line →
      ∃ xs, sampling.grid = .ok xs ∧ ClampedOutputs (sampling.probe curve) b Sample.point
        ((sampling.probe curve).refinedValues maxStep xs) line.points line.tally) ∧
    (∀ (plan : Segmentation) drawing, plan.sampling.clamp = some b →
      plan.drawing curve = .ok drawing →
      ∃ xs, plan.sampling.grid = .ok xs ∧ ClampedOutputs (plan.sampling.probe curve) b Sample.point
        (plan.visitedValues curve xs) drawing.segments.flatten drawing.tally) ∧
    ∀ (plan : Tabulation) table, plan.clamp = some b → plan.table curve = .ok table →
      ClampedOutputs (plan.probe curve) b Sample.entry plan.abscissas table.values.toList
        table.tally :=
  ⟨fun _ _ clamp h => polyline_clamped clamp h,
    fun _ _ _ clamp h => refinedPolyline_clamped clamp h,
    fun _ _ clamp h => drawing_clamped clamp h, fun _ _ clamp h => table_clamped clamp h⟩

end Accepted

/-- A segmentation in which values are clamped. -/
def clampedInterval : Segmentation where
  sampling := { Segmentation.unitInterval.sampling with clamp := some ⟨0.5, 2.0⟩ }

/-- The square at 0 is less than the range allows. -/
theorem outputs_clamped_square : ∃ line drawing,
    clampedInterval.sampling.polyline Segmentation.square = .ok line ∧
    clampedInterval.drawing Segmentation.square = .ok drawing ∧
    ClampedOutputs (clampedInterval.sampling.probe Segmentation.square) ⟨0.5, 2.0⟩ Sample.point
      [0.0, 1.0] line.points line.tally ∧
    ClampedOutputs (clampedInterval.sampling.probe Segmentation.square) ⟨0.5, 2.0⟩ Sample.point
      (clampedInterval.visitedValues Segmentation.square [0.0, 1.0]) drawing.segments.flatten
      drawing.tally ∧
    line.tally.clamped = 1 := by
  have grid : clampedInterval.sampling.grid = .ok [0.0, 1.0] := by decide +kernel
  have lengths : IsLength clampedInterval.maxStep ∧ IsLength clampedInterval.maxJump := by
    decide +kernel
  have sampled := polyline_of_grid grid Segmentation.square
  have drawn : clampedInterval.drawing Segmentation.square = .ok _ :=
    Segmentation.drawing_eq_ok_iff.2 ⟨lengths.1, lengths.2, _, grid, rfl⟩
  obtain ⟨polyline, -, drawing, -⟩ := outputs_clamped ⟨0.5, 2.0⟩ Segmentation.square
  obtain ⟨xs, same, counted⟩ := polyline _ _ rfl sampled
  obtain ⟨xs', same', counted'⟩ := drawing _ _ rfl drawn
  obtain rfl := Except.ok.inj (grid.symm.trans same)
  obtain rfl := Except.ok.inj (grid.symm.trans same')
  exact ⟨_, _, sampled, drawn, counted, counted', by decide +kernel⟩

/-- A sampling in which finite values are clamped to infinity. -/
def infiniteRange : Sampling where
  low := 0.0
  high := 1.0
  resolution := 1
  clamp := some ⟨.ofBits 0x7ff0000000000000, .ofBits 0x7ff0000000000000⟩

/-- The range from infinity to itself is accepted and makes every sample invalid. -/
theorem infiniteRange_invalid : ∃ line,
    infiniteRange.polyline (Formula.ofSource "x").eval = .ok line ∧
    ((infiniteRange.probe (Formula.ofSource "x").eval).unclamped 0.0).isFinite ∧
    line.points.head? = some ((infiniteRange.probe (Formula.ofSource "x").eval).take 0.0).point ∧
    ((infiniteRange.probe (Formula.ofSource "x").eval).take 0.0).isValid = false := by
  have grid : infiniteRange.grid = .ok [0.0, 1.0] := by decide +kernel
  exact ⟨_, polyline_of_grid grid _, by decide +kernel, rfl, by decide +kernel⟩

end Curves

import Curves.Proofs.Sampling.Checked

/-!
# Samplings without faults

The four ways of sampling a curve and the reading of a table, as checked computations that go
through their values one by one. None of them ever comes to a fault, and each has the result of the
one without checks.

Main statements:

* `Checked.polyline_eq`, `Checked.refinedPolyline_eq`: polylines;
* `Pen.draw_eq`, `Pen.drawAll_eq`, `Checked.drawing_eq`: drawings;
* `Checked.entries_eq`, `Checked.valueAt_eq`: tables and their values;
* `samplings_faultless`: all of them.
-/

namespace Curves
open Checked

section Polylines
variable {probe : Probe} {maxLength : Float} {tally : Tally} {a b : Sample}

/-! ## Polylines -/

/-- The sequences of `size` neighbours. -/
def windows {α : Type} (size : Nat) (xs : List α) : List (List α) :=
  (List.range (xs.length + 1 - size)).map fun i => (xs.drop i).take size

theorem windows_two_cons {α : Type} (x y : α) (xs : List α) :
    windows 2 (x :: y :: xs) = [x, y] :: windows 2 (y :: xs) := by
  have length : (x :: y :: xs).length + 1 - 2 = xs.length + 1 := rfl
  rw [windows, length, List.range_succ_eq_map, List.map_cons, List.map_map]
  rfl

def Checked.polyline (sampling : Sampling) (curve : Float → Float) : Checked Polyline := do
  let xs ← grid sampling
  let (samples, tally) ← (sampling.probe curve).visitAll 0 xs
  let samples ← store samples
  return { points := samples.map Sample.point, tally }

/-- Takes the samples in a gap if it is long. -/
def Checked.fillGap (probe : Probe) (maxLength : Float) (tally : Tally) (a b : Sample) :
    Checked (List Sample × Tally) :=
  if a.point.distance b.point > maxLength then
    probe.visitAll tally (dividingValues a.point b.point maxLength)
  else .ok ([], tally)

/-- Goes through pairs of neighbours and keeps the valid samples of their gaps. -/
def Checked.refineGaps (probe : Probe) (maxLength : Float) (tally : Tally) :
    List (List Sample) → Checked (List Sample × Tally)
  | [] => .ok ([], tally)
  | pair :: pairs => do
    let a ← get pair 0
    let b ← get pair 1
    let (between, tally) ← fillGap probe maxLength tally a b
    let (behind, tally) ← refineGaps probe maxLength tally pairs
    return (between.filter (·.isValid) ++ b :: behind, tally)

/-- Refines the gaps between samples if there are at least two. -/
def Checked.refine (probe : Probe) (maxLength : Float) (tally : Tally) (base : List Sample) :
    Checked (List Sample × Tally) :=
  if 1 < base.length then do
    reserve base.length
    let first ← get base 0
    let (behind, tally) ← refineGaps probe maxLength tally (windows 2 base)
    return (first :: behind, tally)
  else .ok (base, tally)

def Checked.refinedPolyline (sampling : Sampling) (curve : Float → Float) (maxStep : Float) :
    Checked Polyline := do
  of (checkLength .maxStep maxStep)
  let xs ← grid sampling
  let probe := sampling.probe curve
  let (samples, tally) ← probe.visitAll 0 xs
  let base ← store (samples.filter (·.isValid))
  let (taken, tally) ← refine probe maxStep tally base
  let taken ← store taken
  return { points := taken.map Sample.point, tally }

/-- At most 4095 samples are inserted between two neighbours. -/
theorem length_inserted_le (probe : Probe) (maxLength : Float) (a b : Sample) :
    (inserted probe maxLength a b).length ≤ 4095 := by
  unfold inserted
  split
  · rw [List.length_map]
    exact length_dividingValues_le ..
  · exact Nat.zero_le _

/-- At most 4095 samples are inserted for each sample of the base. -/
theorem length_insertedAfter_le (probe : Probe) (maxLength : Float) (a : Sample)
    (samples : List Sample) :
    (insertedAfter probe maxLength a samples).length ≤ 4095 * samples.length := by
  induction samples generalizing a with
  | nil => exact Nat.le_refl 0
  | cons b samples ih =>
    have := length_inserted_le probe maxLength a b
    have := ih b
    rw [insertedAfter, List.length_append, List.length_cons]
    omega

theorem Checked.fillGap_eq (clamp : checkClamp probe.clamp = .ok ()) (room : tally.HasRoom 4095) :
    fillGap probe maxLength tally a b =
      .ok (inserted probe maxLength a b, tally + .ofSamples (inserted probe maxLength a b)) := by
  unfold fillGap inserted
  split
  · exact Probe.visitAll_eq clamp (room.mono (length_dividingValues_le ..))
  · rfl

/-- Going through the pairs of neighbours gives the valid samples of the refined sequence. -/
theorem Checked.refineGaps_eq (clamp : checkClamp probe.clamp = .ok ()) {samples : List Sample}
    (valid : ∀ s ∈ samples, s.isValid) (room : tally.HasRoom (4095 * samples.length)) :
    refineGaps probe maxLength tally (windows 2 (a :: samples)) =
      .ok ((refinedAfter probe maxLength a samples).filter (·.isValid),
        tally + .ofSamples (insertedAfter probe maxLength a samples)) := by
  induction samples generalizing a tally with
  | nil => rfl
  | cons b samples ih =>
    obtain ⟨hb, valid⟩ := List.forall_mem_cons.1 valid
    rw [List.length_cons] at room
    have few := length_inserted_le probe maxLength a b
    have more := room.samples (inserted probe maxLength a b) (m := 4095 * samples.length) (by omega)
    rw [windows_two_cons, refineGaps, get_eq (x := a) rfl, ok_bind, get_eq (x := b) rfl, ok_bind,
      fillGap_eq clamp (room.mono (by omega)), ok_bind]
    dsimp only
    rw [ih valid more, ok_bind, refinedAfter, insertedAfter, List.filter_append,
      List.filter_cons_of_pos hb, Tally.ofSamples_append, ← Tally.add_assoc]
    rfl

/-- Refining gives the valid samples of the refined sequence. -/
theorem Checked.refine_eq (clamp : checkClamp probe.clamp = .ok ()) (maxLength : Float)
    (base : List Sample) (valid : ∀ s ∈ base, s.isValid)
    (few : base.length ≤ maxSamples) (room : tally.HasRoom (4095 * base.length)) : ∃ more,
      refine probe maxLength tally base =
        .ok ((refined probe maxLength base).filter (·.isValid), tally + .ofSamples more) ∧
      (refined probe maxLength base).Perm (base ++ more) ∧
      more.length ≤ 4095 * base.length := by
  match base with
  | [] => exact ⟨[], rfl, .refl _, Nat.zero_le _⟩
  | [a] =>
    refine ⟨[], ?_, .refl _, Nat.zero_le _⟩
    have kept : [a].filter (·.isValid) = [a] := List.filter_eq_self.2 valid
    rw [refined, refinedAfter, kept]
    rfl
  | a :: b :: rest =>
    obtain ⟨ha, others⟩ := List.forall_mem_cons.1 valid
    have gaps := length_insertedAfter_le probe maxLength a (b :: rest)
    refine ⟨insertedAfter probe maxLength a (b :: rest), ?_, ?_, ?_⟩
    · rw [refine, if_pos (by simp), reserve_eq (by omega), ok_bind, get_eq (x := a) rfl, ok_bind,
        refineGaps_eq clamp others (room.mono (by simp)), ok_bind, refined,
        List.filter_cons_of_pos ha]
      rfl
    · exact ((refinedAfter_perm a (b :: rest)).trans List.perm_append_comm).cons a
    · exact gaps.trans (Nat.mul_le_mul_left 4095 (Nat.le_succ _))

theorem ofSamples_refined {all more taken : List Sample}
    (perm : taken.Perm (all.filter (·.isValid) ++ more)) :
    Tally.ofSamples (all.filter (!·.isValid) ++ taken) = .ofSamples (all ++ more) :=
  Tally.ofSamples_perm (invalid_append_perm perm)

/-- Sampling a grid has no fault. -/
theorem Checked.polyline_eq (sampling : Sampling) (curve : Float → Float) :
    Checked.polyline sampling curve = of (sampling.polyline curve) := by
  rw [Checked.polyline, Sampling.polyline, grid_eq]
  refine of_bind_eq fun xs given => ?_
  have few : xs.length ≤ maxSamples := (length_grid_le given).trans (by decide)
  have clamp : checkClamp (sampling.probe curve).clamp = .ok () := checkClamp_of_grid given
  rw [Probe.visitAll_eq clamp (.zero few), ok_bind]
  dsimp only
  rw [store_eq (by rwa [List.length_map]), ok_bind, Tally.zero_add]
  rfl

/-- Refining has no fault. -/
theorem Checked.refinedPolyline_eq (sampling : Sampling) (curve : Float → Float)
    (maxStep : Float) : Checked.refinedPolyline sampling curve maxStep =
      of (sampling.refinedPolyline curve maxStep) := by
  rw [Checked.refinedPolyline, Sampling.refinedPolyline, grid_eq]
  refine of_bind_eq fun _ _ => of_bind_eq fun xs given => ?_
  have few := samples_of_grid_le given
  have clamp : checkClamp (sampling.probe curve).clamp = .ok () := checkClamp_of_grid given
  dsimp only
  rw [Probe.visitAll_eq clamp (.zero (by omega)), ok_bind]
  dsimp only
  have many : (xs.map (sampling.probe curve).take).length = xs.length := List.length_map ..
  generalize xs.map (sampling.probe curve).take = all at many
  have kept : (all.filter (·.isValid)).length ≤ all.length := List.length_filter_le ..
  have room := (Tally.HasRoom.zero few).samples all
    (m := 4095 * (all.filter (·.isValid)).length) (by omega)
  obtain ⟨more, taken, perm, gaps⟩ := refine_eq clamp maxStep
    (all.filter (·.isValid)) (fun s hs => (List.mem_filter.1 hs).2) (by omega) room
  have points : ((refined (sampling.probe curve) maxStep (all.filter (·.isValid))).filter
      (·.isValid)).length ≤ _ := List.length_filter_le ..
  rw [perm.length_eq, List.length_append] at points
  rw [store_eq (by omega), ok_bind, taken, ok_bind]
  dsimp only
  rw [store_eq (by omega), ok_bind, Tally.zero_add, ← Tally.ofSamples_append,
    ← ofSamples_refined perm]
  rfl

end Polylines

/-! ## Drawings -/

/-- What is drawn so far: the finished runs and the open one, its last sample first. -/
structure Pen where
  finished : List (List Sample)
  current : List Sample
  tally : Tally

namespace Pen

def start : Pen where
  finished := []
  current := []
  tally := 0

def lift (pen : Pen) : Pen :=
  { pen with finished := pen.finished ++ closed pen.current, current := [] }

def push (pen : Pen) (s : Sample) : Pen := { pen with current := s :: pen.current }

def count (pen : Pen) (tally : Tally) : Pen := { pen with tally := pen.tally + tally }

/-- Draws through a gap up to the first invalid sample. -/
def cross (probe : Probe) (pen : Pen) : List Float → Checked Pen
  | [] => .ok pen
  | x :: xs => do
    let (s, tally) ← probe.visit pen.tally x
    let pen := { pen with tally }
    if s.isValid then cross probe (pen.push s) xs else .ok pen.lift

def draw (probe : Probe) (plan : Segmentation) (pen : Pen) (x : Float) : Checked Pen := do
  let (s, tally) ← probe.visit pen.tally x
  let pen := { pen with tally }
  if s.isValid then
    match pen.current with
    | [] => return pen.push s
    | a :: _ =>
      let distance := a.point.distance s.point
      if distance > plan.maxJump then return pen.lift.push s
      else if distance > plan.maxStep then do
        let pen ← pen.cross probe (dividingValues a.point s.point plan.maxStep)
        return pen.push s
      else return pen.push s
  else return pen.lift

def after (pen : Pen) : Mark → Pen
  | .taken s => if s.isValid then (pen.count (.ofSamples [s])).push s
    else (pen.count (.ofSamples [s])).lift
  | .jump => pen.lift

def follow (pen : Pen) (ms : List Mark) : Pen := ms.foldl after pen

variable {pen : Pen} {probe : Probe} {plan : Segmentation} {ms ns : List Mark} {m : Mark}
  {s : Sample} {xs : List Float}

@[simp] theorem follow_nil : pen.follow [] = pen := rfl

/-- A pen draws one mark after the other. -/
@[simp] theorem follow_cons : pen.follow (m :: ms) = (pen.after m).follow ms := rfl

theorem after_valid (hs : s.isValid) :
    pen.after (.taken s) = (pen.count (.ofSamples [s])).push s := if_pos hs

theorem after_invalid (hs : ¬ s.isValid) :
    pen.after (.taken s) = (pen.count (.ofSamples [s])).lift := if_neg hs

theorem follow_append : pen.follow (ms ++ ns) = (pen.follow ms).follow ns := List.foldl_append ..

/-- Samples may be counted before or after drawing. -/
theorem count_follow (t : Tally) : (pen.count t).follow ms = (pen.follow ms).count t := by
  induction ms generalizing pen with
  | nil => rfl
  | cons m ms ih =>
    have same : (pen.count t).after m = (pen.after m).count t := by
      have swap (u : Tally) : pen.tally + t + u = pen.tally + u + t := by
        rw [Tally.add_assoc, Tally.add_comm t, ← Tally.add_assoc]
      cases m with
      | jump => rfl
      | taken s =>
        unfold after
        dsimp only
        split <;> simp [count, push, lift, swap]
    rw [follow_cons, follow_cons, same, ih]

/-- A pen counts what is taken along the marks. -/
theorem tally_follow (pen : Pen) (ms : List Mark) :
    (pen.follow ms).tally = pen.tally + .ofSamples (takenSamples ms) := by
  induction ms generalizing pen with
  | nil => rfl
  | cons m ms ih =>
    rw [follow_cons, ih]
    cases m with
    | jump => rfl
    | taken s =>
      rw [takenSamples_cons_taken, Tally.ofSamples_cons s (takenSamples ms), ← Tally.add_assoc]
      unfold after
      dsimp only
      split <;> rfl

/-- What is drawn along marks are the runs of valid samples in them. -/
theorem finished_follow (pen : Pen) (ms : List Mark) :
    (pen.follow ms).lift.finished = pen.finished ++ runsFrom pen.current ms := by
  induction ms generalizing pen with
  | nil => rfl
  | cons m ms ih =>
    rw [follow_cons, ih]
    obtain cut | ⟨s, rfl, hs⟩ := m.cut_or_valid
    · rw [runsFrom_cons_cut cut, ← List.append_assoc]
      cases m with
      | jump => rfl
      | taken s =>
        rw [after_invalid (by simpa [Mark.isCut] using cut)]
        rfl
    · rw [runsFrom_cons_taken hs, after_valid hs]
      rfl

theorem length_takeThrough_le (probe : Probe) (xs : List Float) :
    (takeThrough probe xs).length ≤ xs.length := by
  induction xs with
  | nil => exact Nat.le_refl 0
  | cons x xs ih =>
    unfold takeThrough
    dsimp only
    split <;> simp [ih]

/-- Crossing a gap draws its samples up to the first invalid one. -/
theorem cross_eq (clamp : checkClamp probe.clamp = .ok ()) (room : pen.tally.HasRoom xs.length) :
    pen.cross probe xs = .ok (pen.follow ((takeThrough probe xs).map .taken)) := by
  induction xs generalizing pen with
  | nil => rfl
  | cons x xs ih =>
    have more := room.samples [probe.take x] (Nat.le_of_eq (Nat.add_comm 1 xs.length))
    rw [cross, Probe.visit_eq clamp (room.mono (Nat.le_add_left ..)), ok_bind, takeThrough]
    dsimp only
    by_cases valid : (probe.take x).isValid
    · rw [if_pos valid, if_pos valid, List.map_cons, follow_cons, after_valid valid]
      exact ih more
    · rw [if_neg valid, if_neg valid, List.map_singleton, follow_cons, after_invalid valid]
      rfl

/-- What is met from one value of the grid to the next one. -/
def marksAt (probe : Probe) (plan : Segmentation) (last : Option Sample) (x : Float) : List Mark :=
  (if (probe.take x).isValid then last.elim [] (marksBetween probe plan · (probe.take x))
    else []) ++ [.taken (probe.take x)]

/-- Drawing to the next value of the grid has no fault. -/
theorem draw_eq (clamp : checkClamp probe.clamp = .ok ()) (plan : Segmentation)
    (room : pen.tally.HasRoom 4096) (x : Float) :
    pen.draw probe plan x = .ok (pen.follow (marksAt probe plan pen.current.head? x)) := by
  have more := room.samples [probe.take x] (m := 4095) (Nat.le_refl 4096)
  rw [draw, Probe.visit_eq clamp (room.mono (by decide)), ok_bind, marksAt, follow_append]
  generalize probe.take x = s at more
  obtain ⟨finished, current, tally⟩ := pen
  dsimp only at more ⊢
  by_cases valid : s.isValid
  · rw [if_pos valid, if_pos valid, follow_cons, follow_nil, after_valid valid]
    cases current with
    | nil => rfl
    | cons a rest =>
      rw [List.head?_cons, Option.elim_some, marksBetween]
      dsimp only
      split
      · rfl
      split
      · have few := length_dividingValues_le a.point s.point plan.maxStep
        -- the sample at the end of the gap is counted first and drawn last
        rw [cross_eq clamp (more.mono few), ok_bind, ← count_follow]
        rfl
      · rfl
  · rw [if_neg valid, if_neg valid, follow_nil, follow_cons, after_invalid valid]
    rfl

/-- The number of samples that are met from one value of the grid to the next one. -/
theorem length_marksAt_le (probe : Probe) (plan : Segmentation) (last : Option Sample) (x : Float) :
    (takenSamples (marksAt probe plan last x)).length ≤ 4096 := by
  have between (a b : Sample) : (takenSamples (marksBetween probe plan a b)).length ≤ 4095 := by
    unfold marksBetween
    dsimp only
    split_ifs
    · exact Nat.zero_le _
    · rw [takenSamples_map_taken]
      exact (length_takeThrough_le ..).trans (length_dividingValues_le ..)
    · exact Nat.zero_le _
  have before : (takenSamples (if (probe.take x).isValid then
      last.elim [] (marksBetween probe plan · (probe.take x)) else [])).length ≤ 4095 := by
    split
    · cases last with
      | none => exact Nat.zero_le _
      | some a => exact between a _
    · exact Nat.zero_le _
  rw [marksAt, takenSamples_append, List.length_append]
  exact Nat.add_le_add_right before 1

/-- After the next value of the grid the open run ends with its sample if this is valid. -/
theorem head?_follow_marksAt (last : Option Sample) (x : Float) :
    (pen.follow (marksAt probe plan last x)).current.head? = (probe.take x).valid? := by
  rw [marksAt, follow_append, follow_cons, follow_nil, Sample.valid?]
  split
  · rw [after_valid ‹_›]
    rfl
  · rw [after_invalid ‹_›]
    rfl

/-- Drawing along a grid draws all that is met there. -/
theorem drawAll_eq (clamp : checkClamp probe.clamp = .ok ()) (plan : Segmentation) (pen : Pen)
    (room : pen.tally.HasRoom (4096 * xs.length)) :
    xs.foldlM (draw probe plan) pen = .ok (pen.follow (marks probe plan pen.current.head? xs)) ∧
      (takenSamples (marks probe plan pen.current.head? xs)).length ≤ 4096 * xs.length := by
  induction xs generalizing pen with
  | nil => exact ⟨rfl, Nat.le_refl 0⟩
  | cons x xs ih =>
    rw [List.length_cons] at room
    have few := length_marksAt_le probe plan pen.current.head? x
    have step := draw_eq clamp plan (room.mono (by omega)) x
    have split : marks probe plan pen.current.head? (x :: xs) =
        marksAt probe plan pen.current.head? x ++ marks probe plan (probe.take x).valid? xs := by
      rw [Segmentation.marks_cons, marksAt, List.append_assoc]
      rfl
    have more := room.samples (takenSamples (marksAt probe plan pen.current.head? x))
      (m := 4096 * xs.length) (by omega)
    rw [← tally_follow] at more
    obtain ⟨rest, length⟩ := ih _ more
    rw [head?_follow_marksAt] at rest length
    rw [List.foldlM_cons, step, ok_bind, rest, split, follow_append, takenSamples_append,
      List.length_append, List.length_cons]
    exact ⟨rfl, by omega⟩

/-- After a whole grid its runs are drawn and its samples counted. -/
theorem drawAll_start (clamp : checkClamp probe.clamp = .ok ()) (plan : Segmentation)
    (few : 4096 * xs.length ≤ maxSamples) : ∃ pen : Pen,
      xs.foldlM (draw probe plan) .start = .ok pen ∧
      pen.lift.finished = runs (marks probe plan none xs) ∧
      pen.tally = .ofSamples (takenSamples (marks probe plan none xs)) ∧
      pen.lift.finished.flatten.length ≤ maxSamples := by
  obtain ⟨drawn, length⟩ := drawAll_eq clamp plan start (.zero few)
  have found := finished_follow start (marks probe plan none xs)
  refine ⟨_, drawn, found, (tally_follow ..).trans (Tally.zero_add _), ?_⟩
  have valid : (validSamples (marks probe plan none xs)).length ≤
      (takenSamples (marks probe plan none xs)).length := List.length_filter_le ..
  rw [← flatten_runs, runs] at valid
  exact (congrArg (·.flatten.length) found).le.trans (valid.trans (length.trans few))

end Pen

theorem Checked.mapM_eq {α : Type} {f : α → Checked α} {xs : List α} (h : ∀ x ∈ xs, f x = .ok x) :
    xs.mapM f = .ok xs := by
  induction xs with
  | nil => rfl
  | cons x xs ih =>
    obtain ⟨first, others⟩ := List.forall_mem_cons.1 h
    rw [List.mapM_cons, first, ok_bind, ih others, ok_bind]
    rfl

def Pen.finish (pen : Pen) : Checked Drawing := do
  let found ← store pen.lift.finished
  let found ← found.mapM store
  let drawable ← store (found.filter fun run => 2 ≤ run.length)
  let dropped ← sub found.length drawable.length
  return { segments := drawable.map (·.map Sample.point), dropped, tally := pen.tally }

def Checked.drawing (plan : Segmentation) (curve : Float → Float) : Checked Drawing := do
  of (checkLength .maxStep plan.maxStep)
  of (checkLength .maxJump plan.maxJump)
  let xs ← grid plan.sampling
  let pen ← xs.foldlM (Pen.draw (plan.sampling.probe curve) plan) .start
  pen.finish

section Drawings
variable {pen : Pen} {plan : Segmentation} {curve : Float → Float} {xs : List Float}

/-- Runs that fit into memory together fit one by one. -/
theorem Pen.finish_eq (nonempty : [] ∉ pen.lift.finished)
    (few : pen.lift.finished.flatten.length ≤ maxSamples) : pen.finish =
      let drawable := pen.lift.finished.filter fun run => 2 ≤ run.length
      .ok { segments := drawable.map (·.map Sample.point)
            dropped := pen.lift.finished.length - drawable.length
            tally := pen.tally } := by
  unfold finish
  generalize pen.lift.finished = found at nonempty few
  have drawable : (found.filter fun run => 2 ≤ run.length).length ≤ found.length :=
    List.length_filter_le ..
  have number : found.length ≤ found.flatten.length := by
    rw [List.length_flatten]
    refine (List.length_map List.length).symm.le.trans (List.length_le_sum_of_one_le _ ?_)
    intro n hn
    obtain ⟨run, hrun, rfl⟩ := List.mem_map.1 hn
    exact List.length_pos_iff.2 fun empty => nonempty (empty ▸ hrun)
  have each : ∀ run ∈ found, store run = .ok run := fun run hrun =>
    store_eq ((List.sublist_flatten_of_mem hrun).length_le.trans few)
  rw [store_eq (number.trans few), ok_bind, mapM_eq each, ok_bind, store_eq (by omega), ok_bind,
    sub_eq drawable]
  rfl

/-- Splitting into segments has no fault. -/
theorem Checked.drawing_eq (plan : Segmentation) (curve : Float → Float) :
    Checked.drawing plan curve = of (plan.drawing curve) := by
  rw [Checked.drawing, Segmentation.drawing, grid_eq]
  refine of_bind_eq fun _ _ => of_bind_eq fun _ _ => of_bind_eq fun xs given => ?_
  have clamp : checkClamp (plan.sampling.probe curve).clamp = .ok () := checkClamp_of_grid given
  obtain ⟨pen, drawn, found, tally, length⟩ :=
    Pen.drawAll_start clamp plan (samples_of_grid_le given)
  rw [drawn, ok_bind, Pen.finish_eq (found ▸ nil_notMem_runs _) length, found, tally]
  rfl

end Drawings

/-! ## Tables -/

/-- Takes the entries with the given indices and counts them. -/
def Checked.entriesAt (probe : Probe) (width last : Float) (tally : Tally) :
    List Nat → Checked (List Float32 × Tally)
  | [] => .ok ([], tally)
  | i :: rest => do
    let (s, tally) ← probe.visit tally ((i.toUInt64.toFloat / last - 0.5) * width)
    let value := Number.toSingle s.y
    let invalid ← addIf (s.y.isFinite && !value.isFinite) tally.invalid
    let (values, tally) ← entriesAt probe width last { tally with invalid } rest
    return ((if value.isFinite then value else 0.0) :: values, tally)

def Checked.entries (plan : Tabulation) (curve : Float → Float) : Checked (List Float32 × Tally) :=
  if plan.size.toNat < 2 then .error (.refused (.tableTooSmall plan.size))
  else do
    of plan.check
    let last ← sub plan.size.toNat 1
    reserve plan.size.toNat
    entriesAt (plan.probe curve) plan.width last.toUInt64.toFloat 0 (List.range plan.size.toNat)

def Checked.abscissa (table : LookupTable) (index : UInt64) : Checked Float := do
  let last ← sub table.size 1
  return (index.toFloat / last.toUInt64.toFloat - 0.5) * table.width

def Checked.valueAt (table : LookupTable) (x : Float) : Checked Float32 :=
  if x.isNaN then .ok (0.0 / 0.0)
  else do
    let last ← sub table.size 1
    let position ← clamp ⟨0.0, last.toUInt64.toFloat⟩
      ((x / table.width + 0.5) * last.toUInt64.toFloat)
    let lower := (Number.floor position).toUInt64.toNat
    let next ← add lower 1
    let upper := min next last
    let a ← get table.values.toList lower
    let b ← get table.values.toList upper
    return a + (b - a) * Number.toSingle (position - lower.toUInt64.toFloat)

section Tables
variable {probe : Probe} {tally : Tally}

theorem tableTally_cons (s : Sample) (samples : List Sample) :
    tableTally (s :: samples) = tableTally [s] + tableTally samples := by
  unfold tableTally
  rw [Tally.ofSamples_cons]
  refine Tally.eq_of_counts rfl ?_ rfl rfl
  simp only [Tally.invalid_add, List.countP_cons, List.countP_nil]
  omega

/-- An entry that overflows is counted as invalid, and no other valid sample is. -/
theorem tableTally_singleton (s : Sample) : tableTally [s] =
    .ofSamples [s] + ⟨0, s.overflowsSingle.toNat, 0, 0⟩ := by
  refine Tally.eq_of_counts rfl ?_ rfl rfl
  cases overflows : s.overflowsSingle <;> simp [tableTally, overflows]

theorem hasRoom_tableTally (s : Sample) : (tableTally [s]).HasRoom 0 := by
  rw [tableTally_singleton, Tally.ofSamples_singleton, Sample.overflowsSingle]
  refine ⟨⟨s.guarded.toNat_le, s.isClamped.toNat_le⟩, ?_, (by decide : 1 < wordCount)⟩
  cases s.isValid <;> cases (Number.toSingle s.y).isFinite <;> simp

/-- The entries that are taken one by one are those of the samples. -/
theorem Checked.entriesAt_eq (clamp : checkClamp probe.clamp = .ok ()) (width last : Float)
    (indices : List Nat) (room : tally.HasRoom (indices.length + 1)) :
    let samples := indices.map fun i => probe.take ((i.toUInt64.toFloat / last - 0.5) * width)
    entriesAt probe width last tally indices =
      .ok (samples.map Sample.entry, tally + tableTally samples) := by
  intro samples
  induction indices generalizing tally with
  | nil => rfl
  | cons i indices ih =>
    rw [List.length_cons] at room
    rw [entriesAt, Probe.visit_eq clamp (room.mono (Nat.le_add_left ..)), ok_bind]
    dsimp only [samples]
    rw [List.map_cons, List.map_cons, tableTally_cons]
    generalize probe.take ((i.toUInt64.toFloat / last - 0.5) * width) = s
    have counted : (tally + .ofSamples [s]).invalid + 1 < wordCount := by
      have more : (tally + .ofSamples [s]).HasRoom (indices.length + 1) :=
        room.samples [s] (by simp only [List.length_singleton]; omega)
      have := more.invalid_le
      have := more.total_add_lt
      omega
    have more : (tally + tableTally [s]).HasRoom (indices.length + 1) :=
      room.add (hasRoom_tableTally s) (by
        have one : (tableTally [s]).total = 1 := rfl
        omega)
    have same : { tally + Tally.ofSamples [s] with
        invalid := (tally + .ofSamples [s]).invalid + s.overflowsSingle.toNat } =
          tally + tableTally [s] := by
      rw [tableTally_singleton, ← Tally.add_assoc]
      rfl
    change addIf s.overflowsSingle _ >>= _ = _
    rw [addIf_eq _ counted, ok_bind, same, ih more, ok_bind, Tally.add_assoc]
    rfl

/-- Tabulating has no fault. -/
theorem Checked.entries_eq (plan : Tabulation) (curve : Float → Float) :
    Checked.entries plan curve =
      of ((plan.table curve).map fun table => (table.values.toList, table.tally)) := by
  by_cases small : plan.size.toNat < 2
  · rw [Checked.entries, if_pos small, Tabulation.table, dif_pos small]
    rfl
  cases checked : plan.check with
  | error problem =>
    rw [Checked.entries, if_neg small, checked, Tabulation.table, dif_neg small, checked]
    rfl
  | ok =>
    have table := Tabulation.table_of_check (Nat.not_lt.1 small) checked curve
    obtain ⟨few, -, clamp, -⟩ := Tabulation.table_eq_ok table
    rw [Checked.entries, if_neg small, checked, table, of_ok, ok_bind, sub_eq (by omega), ok_bind,
      reserve_eq (few.trans (by decide)), ok_bind, entriesAt_eq clamp _ _ _ (.zero ?_),
      Tally.zero_add]
    · rfl
    · rw [List.length_range]
      exact (Nat.succ_le_succ few).trans (by decide)

theorem Checked.abscissa_eq (table : LookupTable) (index : UInt64) :
    Checked.abscissa table index = .ok (table.abscissa index) := by
  have two := table.two_le_size
  rw [Checked.abscissa, sub_eq (by unfold LookupTable.size; omega)]
  rfl

/-- Reading a table clamps into an ordered range and stays inside of the table. -/
theorem Checked.valueAt_eq {table : LookupTable} (h : table.IsBuilt) (x : Float) :
    Checked.valueAt table x = .ok (table.valueAt x) := by
  cases number : x.isNaN with
  | true => rw [Checked.valueAt, LookupTable.valueAt, number]; rfl
  | false =>
    have two : 1 ≤ table.size := Nat.le_of_lt table.two_le_size
    have most := (LookupTable.floor_position h number).2.2
    obtain ⟨-, upper, -⟩ := LookupTable.cell_upper h number
    have small := h.last_lt.trans (by decide : 2 ^ 24 < 2 ^ 25)
    obtain ⟨a, ha, -⟩ := LookupTable.exists_entry h most
    obtain ⟨b, hb, -⟩ := LookupTable.exists_entry h upper
    rw [LookupTable.valueAt_eq number ha hb, Checked.valueAt, number, if_neg Bool.false_ne_true,
      sub_eq two, ok_bind]
    change clamp ⟨0.0, table.last.toUInt64.toFloat⟩ (table.rawPosition x) >>= _ = _
    rw [clamp_of_isValid h.isValid_places, ok_bind]
    change add (table.cell x).lower 1 >>= _ = _
    rw [add_eq (by unfold wordCount; omega), ok_bind]
    dsimp only
    rw [← Array.getElem?_toList] at ha hb
    change (get table.values.toList (table.cell x).lower >>= fun a =>
      get table.values.toList (table.cell x).upper >>= fun b => _) = _
    rw [get_eq ha, ok_bind, get_eq hb, ok_bind]
    rfl

end Tables

/-- No way of sampling a curve comes to a fault, whatever is asked for: each has its result or is
refused. No value of a table that is given comes to a fault either. So ranges are clamped into only
if they are ordered and their ends are numbers, and tables are read only at indices inside of them.
-/
theorem samplings_faultless (curve : Float → Float) :
    (∀ sampling, Checked.polyline sampling curve = of (sampling.polyline curve)) ∧
    (∀ sampling maxStep, Checked.refinedPolyline sampling curve maxStep =
      of (sampling.refinedPolyline curve maxStep)) ∧
    (∀ plan, Checked.drawing plan curve = of (plan.drawing curve)) ∧
    ∀ plan : Tabulation,
      Checked.entries plan curve =
        of ((plan.table curve).map fun table => (table.values.toList, table.tally)) ∧
      ∀ table, plan.table curve = .ok table →
        (∀ x, Checked.valueAt table x = .ok (table.valueAt x)) ∧
        ∀ index, Checked.abscissa table index = .ok (table.abscissa index) :=
  ⟨fun sampling => polyline_eq sampling curve, fun sampling => refinedPolyline_eq sampling curve,
    fun plan => drawing_eq plan curve, fun plan => ⟨entries_eq plan curve, fun table built =>
      ⟨valueAt_eq (LookupTable.isBuilt built), abscissa_eq table⟩⟩⟩

/-- Clamping into a range that is not ordered is a fault, so a sampling with such a range is
refused. A table with two entries is read at infinity and at NaN. -/
theorem samplings_faultless_unordered :
    Checked.clamp ⟨1.0, 0.0⟩ 0.5 = .error (.fault (.clamp ⟨1.0, 0.0⟩)) ∧
    Checked.polyline { clamp := some ⟨1.0, 0.0⟩ } Segmentation.square =
      .error (.refused (.invalidClamp 1.0 0.0)) ∧
    ∃ table, LookupTable.ends.table Segmentation.square = .ok table ∧
      Checked.valueAt table (1.0 / 0.0) = .ok (table.valueAt (1.0 / 0.0)) ∧
      Checked.valueAt table (0.0 / 0.0) = .ok (table.valueAt (0.0 / 0.0)) := by
  obtain ⟨polylines, -, -, tables⟩ := samplings_faultless Segmentation.square
  have refused : ({ clamp := some ⟨1.0, 0.0⟩ } : Sampling).polyline Segmentation.square =
      .error (.invalidClamp 1.0 0.0) := by decide +kernel
  have built := Tabulation.table_of_check (by decide : 2 ≤ LookupTable.ends.size.toNat)
    (by decide +kernel) Segmentation.square
  obtain ⟨values, -⟩ := (tables LookupTable.ends).2 _ built
  refine ⟨by decide +kernel, ?_, _, built, values _, values _⟩
  rw [polylines, refused]
  rfl

end Curves

import Curves.Proofs.Sampling.Runs

/-!
# Visits along a curve

The samples that a segmentation takes, in order: those of the grid, and those in the gap before
each of them. Marks are these samples with jumps between some neighbours on the grid, so the runs
of a drawing can be described without marks.
-/

namespace Curves

def Sample.valid? (s : Sample) : Option Sample := if s.isValid then some s else none

/-- A sample and where it was taken. -/
structure Visit where
  sample : Sample
  /-- Whether the sample lies on the grid, and not in a gap. -/
  onGrid : Bool

def Visit.isValid (u : Visit) : Bool := u.sample.isValid

def Visit.distance (u v : Visit) : Float := u.sample.point.distance v.sample.point

def Visit.inGap (s : Sample) : Visit := ⟨s, false⟩

def drawable (visits : List Visit) : List Sample := (visits.filter (·.isValid)).map Visit.sample

namespace Segmentation

/-- The samples taken between two neighbours on the grid, the first of which is valid: none if the
gap is not drawn or short, or if the second is not valid. -/
def gap (plan : Segmentation) (probe : Probe) (a b : Sample) : List Sample :=
  if b.isValid ∧ a.point.distance b.point > plan.maxStep ∧
      ¬ a.point.distance b.point > plan.maxJump then
    takeThrough probe (dividingValues a.point b.point plan.maxStep)
  else []

/-- The visits along the grid values `xs`; `last` is the sample before them if it is valid. -/
def visitsFrom (plan : Segmentation) (probe : Probe) (last : Option Sample) :
    List Float → List Visit
  | [] => []
  | x :: xs =>
    let s := probe.take x
    (last.elim [] fun a => (plan.gap probe a s).map .inGap) ++
      ⟨s, true⟩ :: plan.visitsFrom probe s.valid? xs

def visits (plan : Segmentation) (curve : Float → Float) (xs : List Float) : List Visit :=
  plan.visitsFrom (plan.sampling.probe curve) none xs

def Jumps (plan : Segmentation) (u v : Visit) : Prop :=
  (u.isValid ∧ v.isValid) ∧ (u.onGrid ∧ v.onGrid) ∧ u.distance v > plan.maxJump

instance (plan : Segmentation) (u v : Visit) : Decidable (plan.Jumps u v) :=
  inferInstanceAs (Decidable (_ ∧ _))

/-- The mark between `u` and the next visit, if there is one. -/
def between (plan : Segmentation) (u : Visit) : List Visit → List Mark
  | [] => []
  | v :: _ => if plan.Jumps u v then [.jump] else []

/-- The marks of visits. -/
def withJumps (plan : Segmentation) : List Visit → List Mark
  | [] => []
  | u :: W => .taken u.sample :: (plan.between u W ++ plan.withJumps W)

variable {plan : Segmentation} {probe : Probe}

/-! ## The samples of visits -/

/-- The visits on the grid are at its values, in order. -/
theorem visitsFrom_onGrid (plan : Segmentation) (probe : Probe) (last : Option Sample)
    (xs : List Float) : ((plan.visitsFrom probe last xs).filter (·.onGrid)).map Visit.sample =
      xs.map probe.take := by
  induction xs generalizing last with
  | nil => rfl
  | cons x xs ih =>
    cases last <;> simp [visitsFrom, ih, Visit.inGap]

theorem takenSamples_between (plan : Segmentation) (u : Visit) (W : List Visit) :
    takenSamples (plan.between u W) = [] := by
  cases W with
  | nil => rfl
  | cons v W =>
    simp only [between]
    split <;> rfl

/-- The marks of visits hold their samples. -/
theorem takenSamples_withJumps (W : List Visit) :
    takenSamples (plan.withJumps W) = W.map Visit.sample := by
  induction W with
  | nil => rfl
  | cons u W ih =>
    have := takenSamples_between plan u W
    simp_all [withJumps, takenSamples]

theorem validSamples_withJumps (W : List Visit) :
    validSamples (plan.withJumps W) = drawable W := by
  rw [validSamples, takenSamples_withJumps, List.filter_map]
  rfl

/-! ## Marks are visits with jumps -/

theorem not_jumps_inGap_right (u : Visit) (s : Sample) : ¬ plan.Jumps u (.inGap s) := by
  simp [Jumps, Visit.inGap]

theorem not_jumps_inGap_left (s : Sample) (v : Visit) : ¬ plan.Jumps (.inGap s) v := by
  simp [Jumps, Visit.inGap]

theorem withJumps_gap {u v : Visit} (h : ¬ plan.Jumps u v) (samples : List Sample)
    (W : List Visit) : plan.withJumps (u :: (samples.map Visit.inGap ++ v :: W)) =
      .taken u.sample :: (samples.map Mark.taken ++ plan.withJumps (v :: W)) := by
  induction samples generalizing u with
  | nil => simp [withJumps, between, h]
  | cons s samples ih =>
    rw [List.map_cons, List.cons_append, withJumps, ih (not_jumps_inGap_left s v)]
    simp only [between, not_jumps_inGap_right, if_false]
    rfl

theorem marks_cons (last : Option Sample) (x : Float) (xs : List Float) :
    marks probe plan last (x :: xs) =
      (if (probe.take x).isValid then last.elim [] (marksBetween probe plan · (probe.take x))
        else []) ++ .taken (probe.take x) :: marks probe plan (probe.take x).valid? xs := by
  simp only [marks, Sample.valid?]
  split <;> cases last <;> rfl

/-- What is met in a gap is a jump, or the samples taken there. -/
theorem marksBetween_eq {a b : Sample} (ha : a.isValid) (hb : b.isValid) :
    marksBetween probe plan a b =
      if plan.Jumps ⟨a, true⟩ ⟨b, true⟩ then [.jump] else (plan.gap probe a b).map .taken := by
  simp only [marksBetween, gap, Jumps, Visit.isValid, Visit.distance, ha, hb, true_and]
  by_cases long : a.point.distance b.point > plan.maxJump
  · simp [long]
  · simp only [long, if_false, not_false_eq_true, and_true]
    split <;> rfl

theorem gap_of_jumps {a b : Sample} (h : plan.Jumps ⟨a, true⟩ ⟨b, true⟩) :
    plan.gap probe a b = [] :=
  if_neg fun short => short.2.2 h.2.2

/-- The marks that are met along a grid are those of the visits. -/
theorem withJumps_visitsFrom (a : Sample) (xs : List Float) :
    plan.withJumps (⟨a, true⟩ :: plan.visitsFrom probe a.valid? xs) =
      .taken a :: marks probe plan a.valid? xs := by
  induction xs generalizing a with
  | nil => rfl
  | cons x xs ih =>
    rw [visitsFrom, marks_cons, ← ih]
    generalize probe.take x = b
    -- between two valid samples there is a jump or a gap, beside an invalid one there is neither
    by_cases ha : a.isValid
    · simp only [Sample.valid?, ha, if_true, Option.elim_some]
      by_cases jump : plan.Jumps ⟨a, true⟩ ⟨b, true⟩
      · have hb : b.isValid := jump.1.2
        simp [gap_of_jumps jump, marksBetween_eq ha hb, jump, hb, withJumps, between]
      · rw [withJumps_gap jump]
        by_cases hb : b.isValid
        · simp [marksBetween_eq ha hb, jump, hb]
        · simp [gap, hb]
    · have no_jump : ¬ plan.Jumps ⟨a, true⟩ ⟨b, true⟩ := fun jump => ha jump.1.1
      simp [Sample.valid?, ha, withJumps, between, no_jump]

/-- What is met along a grid are the visits and their jumps. -/
theorem withJumps_visits (curve : Float → Float) (xs : List Float) :
    plan.withJumps (plan.visits curve xs) = marks (plan.sampling.probe curve) plan none xs := by
  cases xs with
  | nil => rfl
  | cons x xs =>
    rw [marks_cons, ← withJumps_visitsFrom, visits, visitsFrom]
    simp

/-! ## Cuts between visits -/

theorem withJumps_append (plan : Segmentation) (A : List Visit) (u : Visit) (B : List Visit) :
    ∃ before, plan.withJumps (A ++ u :: B) = before ++ plan.withJumps (u :: B) ∧
      takenSamples before = A.map Visit.sample := by
  induction A with
  | nil => exact ⟨[], rfl, rfl⟩
  | cons w A ih =>
    obtain ⟨before, split, same⟩ := ih
    refine ⟨.taken w.sample :: (plan.between w (A ++ u :: B) ++ before), ?_, ?_⟩
    · rw [List.cons_append, withJumps, split]
      simp
    · have := takenSamples_between plan w (A ++ u :: B)
      simp_all [takenSamples]

/-- Between two visits with no valid one between them, there is a mark exactly if there is an
invalid visit or a jump. -/
theorem withJumps_split (plan : Segmentation) (A : List Visit) (u : Visit) {M : List Visit}
    (v : Visit) (B : List Visit) (invalid : ∀ w ∈ M, ¬ w.isValid) : ∃ before marksBetween after,
    plan.withJumps (A ++ u :: (M ++ v :: B)) =
        before ++ .taken u.sample :: (marksBetween ++ .taken v.sample :: after) ∧
      validSamples before = drawable A ∧ (∀ m ∈ marksBetween, m.isCut) ∧
      (marksBetween ≠ [] ↔ M ≠ [] ∨ plan.Jumps u v) := by
  obtain ⟨before, split, same⟩ := withJumps_append plan A u (M ++ v :: B)
  have before_drawable : validSamples before = drawable A := by
    rw [validSamples, same, List.filter_map]
    rfl
  cases M with
  | nil =>
    refine ⟨before, plan.between u (v :: B), plan.between v B ++ plan.withJumps B, ?_,
      before_drawable, ?_, ?_⟩
    · simpa [withJumps] using split
    · simp only [between]
      split <;> simp [Mark.isCut]
    · simp [between]
  | cons w M =>
    have hw : ¬ w.isValid := invalid w (by simp)
    have no_jump : ¬ plan.Jumps u w := fun jump => hw jump.1.2
    obtain ⟨inside, split', same'⟩ := withJumps_append plan (w :: M) v B
    refine ⟨before, inside, plan.between v B ++ plan.withJumps B, ?_, before_drawable, ?_, ?_⟩
    · rw [split, withJumps, split', withJumps]
      simp [between, no_jump]
    · intro m hm
      cases m with
      | jump => rfl
      | taken s =>
        have : s ∈ takenSamples inside := by
          simpa [takenSamples] using ⟨_, hm, rfl⟩
        rw [same'] at this
        obtain ⟨w', hw', rfl⟩ := List.mem_map.1 this
        simpa [Mark.isCut, Visit.isValid] using invalid w' hw'
    · refine iff_of_true ?_ (by simp)
      rintro rfl
      simp [takenSamples] at same'

/-- Neighbours without a jump between them are linked exactly if they are as marks. -/
theorem withJumps_isChain_iff {R : Sample → Sample → Prop} (W : List Visit) :
    (plan.withJumps W).IsChain (Linked R) ↔ W.IsChain fun u v =>
      u.isValid → v.isValid → ¬ plan.Jumps u v → R u.sample v.sample := by
  induction W with
  | nil => simp [withJumps]
  | cons u W ih =>
    cases W with
    | nil => simp [withJumps, between]
    | cons v W =>
      rw [List.isChain_cons_cons, ← ih, withJumps, between]
      by_cases jump : plan.Jumps u v
      · have cut : Mark.jump.isCut := rfl
        simp [jump, isChain_linked_cons_cut cut, linked_of_cut_right cut]
      · rw [withJumps]
        simp only [jump, if_false, List.nil_append, List.isChain_cons_cons, linked_taken,
          not_false_eq_true, forall_const]
        rfl

end Segmentation

end Curves

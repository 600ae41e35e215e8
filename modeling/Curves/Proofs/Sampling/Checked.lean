import Curves.Proofs.Sampling.Lookup
import Curves.Proofs.Sampling.PiLimit
import Curves.Proofs.Sampling.Points

/-!
# Checked computations

Samplings are computed once more with every step checked that is not possible everywhere: a range is
clamped into only if it is ordered, elements are read only inside of their sequences, counts are
machine words and sequences fit into memory. A checked computation has a value, is refused or comes
to a fault.

Main statements:

* `Probe.visit_eq`, `Probe.visitAll_eq`: samples that are counted one by one;
* `Checked.grid_eq`: grids;
* `length_grid_le`: the size of a grid.
-/

namespace Curves

inductive Fault where
  /-- Clamping into a range that is not ordered, or has an end that is NaN. -/
  | clamp (range : Bounds)
  /-- Reading behind the end of a sequence. -/
  | index (place length : Nat)
  /-- A difference below zero. -/
  | difference (a b : Nat)
  /-- A sum that is no machine word. -/
  | sum (a b : Nat)
  /-- A sequence that does not fit into memory. -/
  | memory (length : Nat)
  deriving DecidableEq

/-- Why a computation has no value. -/
inductive Stop where
  | refused (problem : SamplingProblem)
  | fault (fault : Fault)
  deriving DecidableEq

abbrev Checked (α : Type) := Except Stop α

def wordCount : Nat := 2 ^ 64

/-- The largest size of a sequence. -/
def maxBytes : Nat := 2 ^ 63 - 1

/-- The largest size of an element of a sequence: a point, or the handle of another sequence. -/
def elementBytes : Nat := 24

/-- The largest number of samples that are taken for one request: those of the largest grid, and of
each gap as many as divide it. -/
def maxSamples : Nat := (maxGridSize + 2) * maxParts

namespace Checked
variable {α β : Type}

def of (result : Except SamplingProblem α) : Checked α := result.mapError .refused

def clamp (range : Bounds) (y : Float) : Checked Float :=
  if !range.low.isNaN && !range.high.isNaN && range.low ≤ range.high then .ok (range.clamp y)
  else .error (.fault (.clamp range))

def get (xs : List α) (place : Nat) : Checked α :=
  match xs[place]? with
  | some x => .ok x
  | none => .error (.fault (.index place xs.length))

def sub (a b : Nat) : Checked Nat :=
  if b ≤ a then .ok (a - b) else .error (.fault (.difference a b))

def add (a b : Nat) : Checked Nat :=
  if a + b < wordCount then .ok (a + b) else .error (.fault (.sum a b))

def addIf (condition : Bool) (n : Nat) : Checked Nat := if condition then add n 1 else .ok n

/-- Sets memory aside for a number of elements. -/
def reserve (count : Nat) : Checked Unit :=
  if elementBytes * count ≤ maxBytes then .ok () else .error (.fault (.memory count))

/-- Keeps a sequence that has grown to its length. While it grows, places for twice as many elements
are set aside. -/
def store (xs : List α) : Checked (List α) := do
  reserve (2 * xs.length)
  return xs

@[simp] theorem of_ok (a : α) : of (.ok a) = .ok a := rfl

@[simp] theorem ok_bind (a : α) (f : α → Checked β) : (Except.ok a : Checked α) >>= f = f a := rfl

/-- Computations are equal if what follows their first step is, wherever this has a value. -/
theorem of_bind_eq {x : Except SamplingProblem α} {f : α → Except SamplingProblem β}
    {g : α → Checked β} (h : ∀ a, x = .ok a → g a = of (f a)) : (of x >>= g) = of (x >>= f) := by
  cases x with
  | error problem => rfl
  | ok a => exact h a rfl

/-- A value is clamped into a range exactly if the range is ordered and its ends are numbers. -/
theorem clamp_eq_ok_iff {range : Bounds} {y z : Float} : clamp range y = .ok z ↔
    (range.low.isNaN = false ∧ range.high.isNaN = false ∧ range.low ≤ range.high) ∧
      range.clamp y = z := by
  simp only [clamp, Bool.and_eq_true, Bool.not_eq_true', decide_eq_true_eq, and_assoc]
  split <;> simp_all

/-- A valid range clamps without a fault. -/
theorem clamp_of_isValid {range : Bounds} (valid : range.isValid) (y : Float) :
    clamp range y = .ok (range.clamp y) := by
  obtain ⟨low, high, -⟩ := Bounds.isValid_iff.1 valid
  exact clamp_eq_ok_iff.2 ⟨⟨low, high, Bounds.low_le_high valid⟩, rfl⟩

theorem get_eq {xs : List α} {place : Nat} {x : α} (found : xs[place]? = some x) :
    get xs place = .ok x := by
  rw [get, found]

theorem sub_eq {a b : Nat} (h : b ≤ a) : sub a b = .ok (a - b) := if_pos h

theorem add_eq {a b : Nat} (h : a + b < wordCount) : add a b = .ok (a + b) := if_pos h

theorem addIf_eq {n : Nat} (condition : Bool) (h : n + 1 < wordCount) :
    addIf condition n = .ok (n + condition.toNat) := by
  cases condition
  · rfl
  · exact add_eq h

/-- There is memory for twice as many elements as samples are taken for one request. -/
theorem reserve_eq {count : Nat} (few : count ≤ 2 * maxSamples) : reserve count = .ok () :=
  if_pos ((Nat.mul_le_mul_left elementBytes few).trans (by decide))

/-- A sequence of samples fits into memory. -/
theorem store_eq {xs : List α} (few : xs.length ≤ maxSamples) : store xs = .ok xs := by
  rw [store, reserve_eq (Nat.mul_le_mul_left 2 few)]
  rfl

end Checked

/-! ## Tallies -/

namespace Tally

instance : Add Tally where
  add t u :=
    ⟨t.total + u.total, t.invalid + u.invalid, t.clamped + u.clamped, t.guarded + u.guarded⟩

instance : Zero Tally where
  zero := ⟨0, 0, 0, 0⟩

variable {t u v : Tally}

@[simp] theorem total_add : (t + u).total = t.total + u.total := rfl
@[simp] theorem invalid_add : (t + u).invalid = t.invalid + u.invalid := rfl
@[simp] theorem clamped_add : (t + u).clamped = t.clamped + u.clamped := rfl
@[simp] theorem guarded_add : (t + u).guarded = t.guarded + u.guarded := rfl

theorem eq_of_counts (total : t.total = u.total) (invalid : t.invalid = u.invalid)
    (clamped : t.clamped = u.clamped) (guarded : t.guarded = u.guarded) : t = u := by
  cases t
  cases u
  simp_all

protected theorem add_assoc (t u v : Tally) : t + u + v = t + (u + v) :=
  eq_of_counts (Nat.add_assoc ..) (Nat.add_assoc ..) (Nat.add_assoc ..) (Nat.add_assoc ..)

protected theorem add_comm (t u : Tally) : t + u = u + t :=
  eq_of_counts (Nat.add_comm ..) (Nat.add_comm ..) (Nat.add_comm ..) (Nat.add_comm ..)

@[simp] protected theorem zero_add (t : Tally) : 0 + t = t :=
  eq_of_counts (Nat.zero_add _) (Nat.zero_add _) (Nat.zero_add _) (Nat.zero_add _)

/-- Tallies are added where sequences are joined. -/
theorem ofSamples_append (samples more : List Sample) :
    ofSamples (samples ++ more) = ofSamples samples + ofSamples more :=
  eq_of_counts List.length_append List.countP_append List.countP_append List.countP_append

theorem ofSamples_cons (s : Sample) (samples : List Sample) :
    ofSamples (s :: samples) = ofSamples [s] + ofSamples samples := ofSamples_append [s] samples

theorem ofSamples_singleton (s : Sample) : ofSamples [s] =
    ⟨1, (!s.isValid).toNat, s.isClamped.toNat, s.guarded.toNat⟩ := by
  cases valid : s.isValid <;> simp [ofSamples, List.countP_cons, Bool.toNat, valid]

/-- The order of the samples does not matter. -/
theorem ofSamples_perm {samples more : List Sample} (h : samples.Perm more) :
    ofSamples samples = ofSamples more :=
  eq_of_counts h.length_eq (h.countP_eq _) (h.countP_eq _) (h.countP_eq _)

/-- No count exceeds that of the samples, and `n` more samples can be counted. -/
structure HasRoom (tally : Tally) (n : Nat) : Prop extends tally.IsBounded where
  invalid_le : tally.invalid ≤ tally.total
  total_add_lt : tally.total + n < wordCount

theorem HasRoom.mono {n m : Nat} (h : t.HasRoom n) (less : m ≤ n) : t.HasRoom m where
  toIsBounded := h.toIsBounded
  invalid_le := h.invalid_le
  total_add_lt := (Nat.add_le_add_left less _).trans_lt h.total_add_lt

theorem HasRoom.add {n m : Nat} (h : t.HasRoom n) (hu : u.HasRoom 0) (total : u.total + m ≤ n) :
    (t + u).HasRoom m where
  guarded_le := Nat.add_le_add h.guarded_le hu.guarded_le
  clamped_le := Nat.add_le_add h.clamped_le hu.clamped_le
  invalid_le := Nat.add_le_add h.invalid_le hu.invalid_le
  total_add_lt := by
    have := h.total_add_lt
    rw [total_add]
    omega

/-- Counting samples uses up as much room. -/
theorem HasRoom.samples {n m : Nat} (h : t.HasRoom n) (samples : List Sample)
    (few : samples.length + m ≤ n) : (t + ofSamples samples).HasRoom m := by
  have less := h.total_add_lt
  refine h.add ⟨isBounded_ofSamples samples, invalid_le_total samples, ?_⟩ few
  simp only [ofSamples]
  omega

theorem HasRoom.zero {n : Nat} (few : n ≤ maxSamples) : HasRoom 0 n where
  guarded_le := Nat.le_refl 0
  clamped_le := Nat.le_refl 0
  invalid_le := Nat.le_refl 0
  total_add_lt := by
    rw [show (0 : Tally).total = 0 from rfl, Nat.zero_add]
    exact few.trans_lt (by decide)

end Tally

/-! ## Samples -/

namespace Probe
variable {probe : Probe} {tally : Tally} {x : Float}

/-- Clamps a finite value and tells whether this changes it. -/
def bound (probe : Probe) (y : Float) : Checked (Float × Bool) :=
  match probe.clamp with
  | some range =>
    if y.isFinite then do
      let clamped ← Checked.clamp range y
      return (clamped, clamped != y)
    else return (y, false)
  | none => return (y, false)

def visit (probe : Probe) (tally : Tally) (x : Float) : Checked (Sample × Tally) := do
  let total ← Checked.add tally.total 1
  let substitute := probe.guard.bind (·.substitute? x)
  let guarded ← Checked.addIf substitute.isSome tally.guarded
  let raw := substitute.getD (probe.curve x)
  let (y, changed) ← probe.bound raw
  let clamped ← Checked.addIf changed tally.clamped
  let invalid ← Checked.addIf (!y.isFinite) tally.invalid
  return ({ x, raw, guarded := substitute.isSome, y }, { total, invalid, clamped, guarded })

def visitAll (probe : Probe) (tally : Tally) : List Float → Checked (List Sample × Tally)
  | [] => .ok ([], tally)
  | x :: xs => do
    let (s, tally) ← probe.visit tally x
    let (samples, tally) ← visitAll probe tally xs
    return (s :: samples, tally)

/-- The value itself counts as changed if clamping changes it, and only finite values do. -/
theorem bound_eq (valid : checkClamp probe.clamp = .ok ()) (y : Float) :
    probe.bound y =
      .ok (probe.clampFinite y, y.isFinite && probe.clampFinite y != y) := by
  unfold bound clampFinite
  cases clamp : probe.clamp with
  | none =>
    dsimp only
    cases finite : y.isFinite with
    | false => rfl
    | true =>
      have same : (y == y) = true := (Number.beq_iff_toRat finite finite).2 rfl
      rw [bne, same]
      rfl
  | some range =>
    rw [clamp, checkClamp_eq_ok_iff] at valid
    dsimp only
    cases finite : y.isFinite with
    | false => rfl
    | true => simp [Checked.clamp_of_isValid valid, pure, Except.pure]

/-- A sample that is taken and counted is the sample at its place. -/
theorem visit_eq (valid : checkClamp probe.clamp = .ok ()) (room : tally.HasRoom 1) (x : Float) :
    probe.visit tally x = .ok (probe.take x, tally + .ofSamples [probe.take x]) := by
  have few {n : Nat} (less : n ≤ tally.total) : n + 1 < wordCount :=
    (Nat.add_le_add_right less 1).trans_lt room.total_add_lt
  have taken : probe.take x =
      { x
        raw := (probe.guard.bind (·.substitute? x)).getD (probe.curve x)
        guarded := (probe.guard.bind (·.substitute? x)).isSome
        y := probe.clampFinite ((probe.guard.bind (·.substitute? x)).getD (probe.curve x)) } := by
    unfold take
    cases probe.guard.bind (·.substitute? x) <;> rfl
  rw [Tally.ofSamples_singleton, taken]
  simp only [visit, bound_eq valid, Checked.add_eq room.total_add_lt,
    Checked.addIf_eq _ (few room.guarded_le), Checked.addIf_eq _ (few room.clamped_le),
    Checked.addIf_eq _ (few room.invalid_le), Checked.ok_bind]
  rfl

/-- Taking samples has no fault while there is room, and gives what is taken without checks. -/
theorem visitAll_eq (valid : checkClamp probe.clamp = .ok ()) {xs : List Float}
    (room : tally.HasRoom xs.length) :
    probe.visitAll tally xs = .ok (xs.map probe.take, tally + .ofSamples (xs.map probe.take)) := by
  induction xs generalizing tally with
  | nil => rfl
  | cons x xs ih =>
    have more : (tally + .ofSamples [probe.take x]).HasRoom xs.length :=
      room.samples _ (Nat.le_of_eq (Nat.add_comm ..))
    rw [visitAll, visit_eq valid (room.mono (Nat.le_add_left ..)), Checked.ok_bind]
    dsimp only
    rw [ih more, Checked.ok_bind, List.map_cons, Tally.ofSamples_cons _ (xs.map _),
      ← Tally.add_assoc]
    rfl

end Probe

/-! ## Grids -/

section Grids
variable {sampling : Sampling} {xs : List Float}

/-- The larger one of two values, of which one may be NaN. -/
def larger (a b : Float) : Float :=
  if a.isNaN then b else if b.isNaN then a else if a < b then b else a

def Checked.gridPlaces (sampling : Sampling) : Checked Nat :=
  match sampling.spacing with
  | .uniform => add sampling.resolution.toNat 1
  | .piMultiples => add (larger sampling.piCount 0.0).toUInt64.toNat 2

/-- The values of a grid, for which places are set aside first. Nothing else in a grid can come to a
fault. -/
def Checked.grid (sampling : Sampling) : Checked (List Float) := do
  let xs ← of sampling.grid
  reserve (← gridPlaces sampling)
  return xs

/-- What is known of a uniform grid. -/
theorem uniformGrid_eq_ok (spacing : sampling.spacing = .uniform) (grid : sampling.grid = .ok xs) :
    sampling.resolution.toNat < maxGridSize ∧
      xs = (List.range (sampling.resolution.toNat + 1)).map sampling.uniformValue := by
  rw [Sampling.grid, check_of_grid grid, spacing] at grid
  change sampling.uniformGrid = _ at grid
  unfold Sampling.uniformGrid at grid
  split_ifs at grid with many
  exact ⟨Nat.not_le.1 many, (Except.ok.inj grid).symm⟩

/-- A count that is not too large sets aside no more places than allowed, and none if it is negative
or NaN. -/
theorem larger_piCount_le (few : ¬ sampling.piCount > maxGridSize.toUInt64.toFloat) :
    (larger sampling.piCount 0.0).toUInt64.toNat ≤ maxGridSize := by
  have none : (0.0 : Float).toUInt64.toNat = 0 :=
    Number.toNat_toUInt64 Number.toRat_zero.1 Number.toRat_zero.2 (by decide)
  unfold larger
  split_ifs with nan zero negative
  · omega
  · exact absurd zero (by decide +kernel)
  · omega
  by_cases one : sampling.piCount ≥ 1.0
  · have := Sampling.multipleCount_le few
    rwa [Sampling.multipleCount, if_pos one] at this
  -- the count is integral, so below one it is zero
  have number := Bool.eq_false_iff.2 nan
  have low := (Number.le_iff_not_gt number).2
    ⟨Number.isNaN_eq_false_of_isFinite Number.toRat_zero.1, negative⟩
  have finite := Number.isFinite_of_between Number.toRat_zero.1 Sampling.toRat_maxGridSize.1 low few
  obtain ⟨first, last, h⟩ := Sampling.exists_hasIndices finite
  have empty : last - first + 1 ≤ 0 := by
    have := mt (h.one_le_piCount_iff finite).2 one
    omega
  have most := (Sampling.nearest_succ_le_iff (n := 0) (by norm_num)).2 empty
  rw [← h.toRat_piCount finite] at most
  rw [Number.le_iff_toRat Number.toRat_zero.1 finite, Number.toRat_zero.2] at low
  have zero : Number.toRat sampling.piCount = (0 : Nat) := by
    push_cast at most ⊢
    exact le_antisymm most low
  rw [Number.toNat_toUInt64 finite zero (by decide)]
  exact Nat.zero_le _

/-- A checked grid comes to no fault. -/
theorem Checked.grid_eq (sampling : Sampling) : Checked.grid sampling = of sampling.grid := by
  rw [Checked.grid]
  cases given : sampling.grid with
  | error problem => rfl
  | ok xs =>
    have room : ∃ n, gridPlaces sampling = .ok n ∧ n ≤ maxGridSize + 2 := by
      have words : maxGridSize + 2 < wordCount := by decide
      unfold gridPlaces
      cases spacing : sampling.spacing with
      | uniform =>
        have few := (uniformGrid_eq_ok spacing given).1
        exact ⟨_, add_eq (by omega), by omega⟩
      | piMultiples =>
        have few := larger_piCount_le (Sampling.piGrid_eq_ok spacing given).2.1
        exact ⟨_, add_eq (by omega), by omega⟩
    obtain ⟨n, places, few⟩ := room
    rw [of_ok, ok_bind, places, ok_bind, reserve_eq (few.trans (by decide))]
    rfl

/-- A grid has two values more than the limit at most. -/
theorem length_grid_le (grid : sampling.grid = .ok xs) : xs.length ≤ maxGridSize + 2 := by
  cases spacing : sampling.spacing with
  | uniform =>
    obtain ⟨few, rfl⟩ := uniformGrid_eq_ok spacing grid
    rw [List.length_map, List.length_range]
    omega
  | piMultiples =>
    obtain ⟨-, few, rfl⟩ := Sampling.piGrid_eq_ok spacing grid
    have ends := Sampling.length_withEnds_le sampling sampling.multiplesInside
    have inside := Sampling.length_multiplesInside_le sampling
    have := Sampling.multipleCount_le few
    omega

/-- A grid and its gaps have no more samples than are taken for one request. -/
theorem samples_of_grid_le (grid : sampling.grid = .ok xs) : 4096 * xs.length ≤ maxSamples := by
  have := length_grid_le grid
  unfold maxSamples maxParts
  omega

end Grids

end Curves

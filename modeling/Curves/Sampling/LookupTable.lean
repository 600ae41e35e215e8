import Curves.Event
import Curves.Number.Integral
import Curves.Number.Single
import Curves.Sampling.Sample

/-!
# Lookup tables

A table of single-precision samples, evenly spaced over a window centred on zero. A sample that
is not finite, or becomes infinite in single precision, is stored as zero. Values between the
entries are interpolated, and beyond the window the outermost entries continue.
-/

namespace Curves

/-- The size and the window of a table, and the treatment of the values in it. -/
structure Tabulation where
  size : UInt64 := 8192
  /-- The width of the window. -/
  width : Float := 30.0
  clamp : Option Bounds := some ⟨-50.0, 50.0⟩
  guard : Option PoleGuard := some {}
  deriving DecidableEq

structure LookupTable where
  /-- The width of the window. -/
  width : Float
  values : Array Float32
  tally : Tally
  two_le_size : 2 ≤ values.size

/-- Refuses a tabulation that has no table, unless it is only too small. -/
def Tabulation.check (plan : Tabulation) : Except SamplingProblem Unit := do
  if maxGridSize < plan.size.toNat then .error .tooManySamples
  checkLength .width plan.width
  checkClamp plan.clamp

/-- The abscissa of the entry `index` in a table of `size` entries over a window of the given
width. -/
def tableAbscissa (size : Nat) (width : Float) (index : UInt64) : Float :=
  (index.toFloat / (size - 1).toUInt64.toFloat - 0.5) * width

/-- Whether a sample is finite, but not in single precision. -/
def Sample.overflowsSingle (s : Sample) : Bool :=
  s.isValid && !(Number.toSingle s.y).isFinite

/-- The entry for a sample. -/
def Sample.entry (s : Sample) : Float32 :=
  let value := Number.toSingle s.y
  if value.isFinite then value else 0.0

def Tabulation.samples (plan : Tabulation) (curve : Float → Float) : List Sample :=
  let probe : Probe := { curve, clamp := plan.clamp, guard := plan.guard }
  (List.range plan.size.toNat).map fun i =>
    probe.take (tableAbscissa plan.size.toNat plan.width i.toUInt64)

@[simp] theorem Tabulation.length_samples (plan : Tabulation) (curve : Float → Float) :
    (plan.samples curve).length = plan.size.toNat := by
  simp [samples]

/-- The tally of the samples of a table: entries that overflow count as invalid. -/
def tableTally (samples : List Sample) : Tally :=
  let tally := Tally.ofSamples samples
  { tally with invalid := tally.invalid + samples.countP (·.overflowsSingle) }

def Tabulation.table (plan : Tabulation) (curve : Float → Float) :
    Except SamplingProblem LookupTable :=
  if small : plan.size.toNat < 2 then .error (.tableTooSmall plan.size)
  else do
    plan.check
    let samples := plan.samples curve
    return { width := plan.width
             values := (samples.map Sample.entry).toArray
             tally := tableTally samples
             two_le_size := by
              rw [List.size_toArray, List.length_map, plan.length_samples]
              omega }

namespace LookupTable

def size (table : LookupTable) : Nat := table.values.size

def abscissa (table : LookupTable) (index : UInt64) : Float :=
  tableAbscissa table.size table.width index

/-- Where a value lies between two neighbouring entries. -/
structure Cell where
  lower : Nat
  upper : Nat
  /-- The way from the lower to the upper entry that is covered. -/
  fraction : Float32

/-- The place of `x` in the table, where the window ends if it is beyond. -/
def cell (table : LookupTable) (x : Float) : Cell :=
  let last := table.size - 1
  let position :=
    Bounds.clamp ⟨0.0, last.toUInt64.toFloat⟩ ((x / table.width + 0.5) * last.toUInt64.toFloat)
  let lower := (Number.floor position).toUInt64.toNat
  { lower
    upper := min (lower + 1) last
    fraction := Number.toSingle (position - lower.toUInt64.toFloat) }

/-- The interpolated value at `x`, which is NaN at NaN only. -/
def valueAt (table : LookupTable) (x : Float) : Float32 :=
  if x.isNaN then 0.0 / 0.0
  else
    let cell := table.cell x
    let a := table.values.getD cell.lower 0.0
    let b := table.values.getD cell.upper 0.0
    a + (b - a) * cell.fraction

def event (table : LookupTable) (source : String) : Event where
  level := .debug
  message := "built lookup table"
  fields := [("source", .quoted source), ("size", .count table.size),
    ("range", .number table.width), ("invalid", .count table.tally.invalid),
    ("guarded", .count table.tally.guarded)]

end LookupTable

end Curves

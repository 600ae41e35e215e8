import Curves.Number.Length
import Curves.Sampling.Basic

/-!
# Samples

A sample records the `x` at which a curve was taken, the value found there and what became of it:
a value near zero may be replaced by the guard, and a finite value is clamped. A sample is valid
if its final value is finite. The tally of a sampling counts its samples.
-/

namespace Curves

structure Point where
  x : Float
  y : Float
  deriving DecidableEq

def Point.distance (p q : Point) : Float := Number.length (q.x - p.x) (q.y - p.y)

structure Sample where
  x : Float
  /-- The value before it is clamped. -/
  raw : Float
  /-- Whether the value replaces that of the curve. -/
  guarded : Bool
  /-- The value after it is clamped. -/
  y : Float
  deriving DecidableEq

namespace Sample

def isValid (s : Sample) : Bool := s.y.isFinite

def isClamped (s : Sample) : Bool := s.raw.isFinite && s.y != s.raw

def point (s : Sample) : Point := ⟨s.x, s.y⟩

end Sample

/-- How samples of a curve are taken. -/
structure Probe where
  curve : Float → Float
  clamp : Option Bounds
  guard : Option PoleGuard

namespace Probe

/-- Clamps a finite value; NaN and infinities stay as they are. -/
def clampFinite (probe : Probe) (y : Float) : Float :=
  match probe.clamp with
  | some bounds => if y.isFinite then bounds.clamp y else y
  | none => y

def take (probe : Probe) (x : Float) : Sample :=
  match probe.guard.bind (·.substitute? x) with
  | some raw => { x, raw, guarded := true, y := probe.clampFinite raw }
  | none =>
    let raw := probe.curve x
    { x, raw, guarded := false, y := probe.clampFinite raw }

/-- A sample is taken where it is asked for. -/
@[simp] theorem x_take (probe : Probe) (x : Float) : (probe.take x).x = x := by
  unfold take; split <;> rfl

/-- The value of a sample is the raw one, clamped. -/
@[simp] theorem y_take (probe : Probe) (x : Float) :
    (probe.take x).y = probe.clampFinite (probe.take x).raw := by
  unfold take; split <;> rfl

end Probe

/-- Counts of the samples of one sampling. -/
structure Tally where
  /-- All samples. -/
  total : Nat
  /-- Samples that are NaN or infinite, or too large to be stored. -/
  invalid : Nat
  /-- Samples that clamping changed. -/
  clamped : Nat
  /-- Samples that the guard replaced. -/
  guarded : Nat
  deriving DecidableEq, Repr

def Tally.ofSamples (samples : List Sample) : Tally where
  total := samples.length
  invalid := samples.countP (!·.isValid)
  clamped := samples.countP (·.isClamped)
  guarded := samples.countP (·.guarded)

/-- Not more samples are invalid than are counted. -/
theorem Tally.invalid_le_total (samples : List Sample) :
    (ofSamples samples).invalid ≤ (ofSamples samples).total := List.countP_le_length

end Curves

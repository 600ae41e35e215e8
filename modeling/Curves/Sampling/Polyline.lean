import Curves.Event
import Curves.Number.Integral
import Curves.Sampling.Grid
import Curves.Sampling.Sample

/-!
# Polylines

Two ways to turn a curve into one sequence of points. `Sampling.polyline` takes the samples of a
grid and keeps them all. `Sampling.refinedPolyline` keeps the valid ones and divides each gap
between neighbours that are further apart than a given length into equal parts in `x`; samples
inserted there are kept if they are valid.
-/

namespace Curves

/-- Points along a curve and how they came about. -/
structure Polyline where
  points : List Point
  tally : Tally
  deriving DecidableEq

namespace Polyline

def validPoints (line : Polyline) : List Point := line.points.filter (·.y.isFinite)

end Polyline

def Sampling.probe (sampling : Sampling) (curve : Float → Float) : Probe where
  curve := curve
  clamp := sampling.clamp
  guard := sampling.guard

def Sampling.polyline (sampling : Sampling) (curve : Float → Float) :
    Except SamplingProblem Polyline := do
  let xs ← sampling.grid
  let samples := xs.map (sampling.probe curve).take
  return { points := samples.map Sample.point, tally := .ofSamples samples }

/-- The number of parts into which the gap between `p` and `q` is divided so that each is at most
`maxLength` long, were the curve straight. -/
def parts (p q : Point) (maxLength : Float) : Nat :=
  min (Number.ceiling (p.distance q / maxLength)).toUInt64.toNat maxParts

/-- The `x` values that divide the gap between `p` and `q` evenly. -/
def dividingValues (p q : Point) (maxLength : Float) : List Float :=
  let parts := parts p q maxLength
  (List.range' 1 (parts - 1)).map fun j =>
    p.x + (q.x - p.x) * (j.toUInt64.toFloat / parts.toUInt64.toFloat)

def inserted (probe : Probe) (maxLength : Float) (a b : Sample) : List Sample :=
  if a.point.distance b.point > maxLength then
    (dividingValues a.point b.point maxLength).map probe.take
  else []

/-- The samples behind `a`, each with the ones inserted before it. -/
def refinedAfter (probe : Probe) (maxLength : Float) (a : Sample) : List Sample → List Sample
  | [] => []
  | b :: rest => inserted probe maxLength a b ++ b :: refinedAfter probe maxLength b rest

def refined (probe : Probe) (maxLength : Float) : List Sample → List Sample
  | [] => []
  | a :: rest => a :: refinedAfter probe maxLength a rest

/-- Samples a curve on a grid, drops invalid samples and refines long gaps. -/
def Sampling.refinedPolyline (sampling : Sampling) (curve : Float → Float) (maxStep : Float) :
    Except SamplingProblem Polyline := do
  checkLength .maxStep maxStep
  let xs ← sampling.grid
  let probe := sampling.probe curve
  let base := xs.map probe.take
  let taken := refined probe maxStep (base.filter (·.isValid))
  return { points := (taken.filter (·.isValid)).map Sample.point
           tally := .ofSamples (base.filter (!·.isValid) ++ taken) }

def Polyline.sampledEvent (line : Polyline) (source : String) : Event where
  level := .debug
  message := "sampled curve"
  fields := [("source", .quoted source), ("points", .count line.points.length),
    ("invalid", .count line.tally.invalid), ("clamped", .count line.tally.clamped),
    ("guarded", .count line.tally.guarded)]

def Polyline.refinedEvent (line : Polyline) (source : String) : Event where
  level := .debug
  message := "adaptively sampled curve"
  fields := [("source", .quoted source), ("points", .count line.points.length),
    ("evaluations", .count line.tally.total), ("invalid", .count line.tally.invalid)]

end Curves

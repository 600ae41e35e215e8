import Curves.Number.Constant
import Curves.Number.Integral
import Curves.Sampling.Basic

/-!
# Sampling grids

The `x` values at which a curve is sampled. A uniform grid has `resolution + 1` values from one
end of the window to the other. A grid of multiples has the multiples of `π / resolution` that lie
in the window; an end of the window is added unless a multiple lies within `gridTolerance` of it.
-/

namespace Curves

/-- The ends of a window that are this close to a multiple are not added to the grid. -/
def gridTolerance : Float := 0.001

namespace Sampling

/-- The distance of neighbours on a uniform grid. The ends are divided before they are subtracted
if the width of the window overflows. -/
def uniformStep (sampling : Sampling) : Float :=
  let intervals := sampling.resolution.toFloat
  let width := sampling.high - sampling.low
  if width.isFinite then width / intervals
  else sampling.high / intervals - sampling.low / intervals

def uniformValue (sampling : Sampling) (i : Nat) : Float :=
  if i = sampling.resolution.toNat then sampling.high
  else sampling.low + i.toUInt64.toFloat * sampling.uniformStep

def uniformGrid (sampling : Sampling) : Except SamplingProblem (List Float) :=
  if maxGridSize ≤ sampling.resolution.toNat then .error .tooManySamples
  else .ok ((List.range (sampling.resolution.toNat + 1)).map sampling.uniformValue)

/-- Adds the ends of the window to values inside it, unless they are nearly among them. -/
def withEnds (sampling : Sampling) (xs : List Float) : List Float :=
  let fromLow :=
    if xs.head?.all fun x => x > sampling.low + gridTolerance then sampling.low :: xs else xs
  if fromLow.getLast?.all fun x => x < sampling.high - gridTolerance then fromLow ++ [sampling.high]
  else fromLow

def piGrid (sampling : Sampling) : Except SamplingProblem (List Float) :=
  if sampling.high - sampling.low < gridTolerance then
    .error (.invalidWindow sampling.low sampling.high)
  else
    let step := Number.pi / sampling.resolution.toFloat
    let first := Number.ceiling (sampling.low / step)
    let last := Number.floor (sampling.high / step)
    let count := last - first + 1.0
    if count > maxGridSize.toUInt64.toFloat then .error .tooManySamples
    else
      let multiples := if count ≥ 1.0 then List.range count.toUInt64.toNat else []
      let inside := (multiples.map fun k => (first + k.toUInt64.toFloat) * step).filter
        fun x => x ≥ sampling.low && x ≤ sampling.high
      .ok (sampling.withEnds inside)

def grid (sampling : Sampling) : Except SamplingProblem (List Float) := do
  sampling.check
  match sampling.spacing with
  | .uniform => sampling.uniformGrid
  | .piMultiples => sampling.piGrid

end Sampling

end Curves

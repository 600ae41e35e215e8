import Curves.Number.Text

/-!
# Samplings

What can be asked for when a curve is sampled, and the reasons for refusing it. The checks come
in a fixed order: the resolution, the window, the clamp range.
-/

namespace Curves

/-- The largest number of samples of one grid or table. -/
def maxGridSize : Nat := 16777216

/-- The largest number of parts into which one gap is divided. -/
def maxParts : Nat := 4096

/-- The lengths that can be asked for. -/
inductive Extent where
  /-- The longest gap that is not divided. -/
  | maxStep
  /-- The longest gap that is drawn. -/
  | maxJump
  /-- The width of a table's window. -/
  | width
  deriving DecidableEq, Repr

def Extent.name : Extent → String
  | .maxStep => "max_segment_length"
  | .maxJump => "max_draw_length"
  | .width => "range"

/-- Why a sampling is refused. -/
inductive SamplingProblem where
  | zeroResolution
  | invalidWindow (low high : Float)
  | invalidClamp (low high : Float)
  | invalidLength (extent : Extent) (value : Float)
  | tableTooSmall (size : UInt64)
  | tooManySamples
  deriving DecidableEq

def SamplingProblem.message : SamplingProblem → String
  | .zeroResolution => "Resolution must be at least 1"
  | .invalidWindow low high =>
    "Invalid sampling window [" ++ Number.text low ++ ", " ++ Number.text high ++ "]"
  | .invalidClamp low high =>
    "Invalid clamp range [" ++ Number.text low ++ ", " ++ Number.text high ++ "]"
  | .invalidLength extent value =>
    extent.name ++ " must be finite and positive (got " ++ Number.text value ++ ")"
  | .tableTooSmall size =>
    "Lookup table needs at least 2 samples (got " ++ toString size.toNat ++ ")"
  | .tooManySamples => "More than " ++ toString maxGridSize ++ " samples requested"

/-- A range of values, both ends included. -/
structure Bounds where
  low : Float
  high : Float
  deriving DecidableEq

namespace Bounds

/-- Whether values can be clamped into the range. -/
def isValid (b : Bounds) : Bool := !(b.low.isNaN || b.high.isNaN || b.low > b.high)

/-- The value of the range that is nearest to `y`. -/
def clamp (b : Bounds) (y : Float) : Float :=
  let raised := if y < b.low then b.low else y
  if raised > b.high then b.high else raised

end Bounds

/-- Replaces samples near `x = 0`, so that poles there stay drawable. -/
structure PoleGuard where
  /-- Samples with `|x|` below the radius are replaced. -/
  radius : Float := 0.01
  /-- The magnitude of the replacement, which has the sign of `x`, plus at zero. -/
  height : Float := 100.0
  deriving DecidableEq

def PoleGuard.substitute? (guard : PoleGuard) (x : Float) : Option Float :=
  if x.abs < guard.radius then
    some (if x < 0.0 then -guard.height else guard.height)
  else none

/-- Where the samples of a grid lie. -/
inductive Spacing where
  /-- Evenly between the ends of the window. -/
  | uniform
  /-- At the multiples of `π / resolution` in the window, and at its ends. -/
  | piMultiples
  deriving DecidableEq, Repr

/-- A grid and the treatment of the values on it. -/
structure Sampling where
  low : Float := -10.0
  high : Float := 10.0
  /-- The number of intervals, or of parts of `π`. -/
  resolution : UInt64 := 100
  spacing : Spacing := .uniform
  /-- The range into which finite values are clamped. -/
  clamp : Option Bounds := none
  guard : Option PoleGuard := none
  deriving DecidableEq

/-- Refuses a range into which values cannot be clamped. -/
def checkClamp (clamp : Option Bounds) : Except SamplingProblem Unit :=
  match clamp with
  | some b => if b.isValid then .ok () else .error (.invalidClamp b.low b.high)
  | none => .ok ()

/-- Refuses a length that is not finite and positive. -/
def checkLength (extent : Extent) (value : Float) : Except SamplingProblem Unit :=
  if value.isFinite && value > 0.0 then .ok () else .error (.invalidLength extent value)

/-- Refuses a sampling that has no grid or no clamp range. -/
def Sampling.check (sampling : Sampling) : Except SamplingProblem Unit :=
  if sampling.resolution = 0 then .error .zeroResolution
  else if !sampling.low.isFinite || !sampling.high.isFinite || sampling.low ≥ sampling.high then
    .error (.invalidWindow sampling.low sampling.high)
  else checkClamp sampling.clamp

end Curves

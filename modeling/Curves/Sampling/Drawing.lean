import Curves.Sampling.Polyline

/-!
# Drawings

A curve is split into segments that can be drawn without lifting the pen. An invalid sample ends
a segment, and so does a jump between neighbours on the grid that is too long to draw. Shorter
gaps that are still long are divided like those of an adaptive sampling, but only up to the first
invalid sample in the gap.

A segmentation is first laid out as a sequence of marks along the grid, and the runs of valid
samples in it are the segments. A run of a single sample cannot be drawn and is dropped.
-/

namespace Curves

/-- The grid of a segmentation and its two lengths. -/
structure Segmentation where
  sampling : Sampling := { spacing := .piMultiples }
  /-- Gaps that are longer are divided. -/
  maxStep : Float := 1.0
  /-- Gaps that are longer are not drawn. -/
  maxJump : Float := 10.0
  deriving DecidableEq

/-- What is met along a curve. -/
inductive Mark where
  | taken (sample : Sample)
  /-- A jump that is not drawn. -/
  | jump

/-- Takes samples up to the first invalid one, which is included. -/
def takeThrough (probe : Probe) : List Float → List Sample
  | [] => []
  | x :: rest =>
    let s := probe.take x
    if s.isValid then s :: takeThrough probe rest else [s]

/-- What is met between a valid sample and the next one, which is valid too. -/
def marksBetween (probe : Probe) (plan : Segmentation) (a b : Sample) : List Mark :=
  let distance := a.point.distance b.point
  if distance > plan.maxJump then [.jump]
  else if distance > plan.maxStep then
    (takeThrough probe (dividingValues a.point b.point plan.maxStep)).map .taken
  else []

/-- What is met along the grid values `xs`; `last` is the sample before them if it is valid. -/
def marks (probe : Probe) (plan : Segmentation) (last : Option Sample) :
    List Float → List Mark
  | [] => []
  | x :: rest =>
    let s := probe.take x
    if s.isValid then
      let before := match last with
        | some a => marksBetween probe plan a s
        | none => []
      before ++ .taken s :: marks probe plan (some s) rest
    else .taken s :: marks probe plan none rest

/-- The runs of valid samples, of which the first continues the reversed `current`. -/
def runsFrom (current : List Sample) : List Mark → List (List Sample)
  | [] => if current.isEmpty then [] else [current.reverse]
  | .taken s :: rest =>
    if s.isValid then runsFrom (s :: current) rest
    else if current.isEmpty then runsFrom [] rest
    else current.reverse :: runsFrom [] rest
  | .jump :: rest =>
    if current.isEmpty then runsFrom [] rest else current.reverse :: runsFrom [] rest

def runs (marks : List Mark) : List (List Sample) := runsFrom [] marks

/-- The samples among marks. -/
def takenSamples (marks : List Mark) : List Sample :=
  marks.filterMap fun
    | .taken s => some s
    | .jump => none

/-- A curve in segments. -/
structure Drawing where
  segments : List (List Point)
  /-- The number of runs that were too short to be segments. -/
  dropped : Nat
  tally : Tally
  deriving DecidableEq

def Drawing.size (drawing : Drawing) : Nat := drawing.segments.flatten.length

def Segmentation.drawing (plan : Segmentation) (curve : Float → Float) :
    Except SamplingProblem Drawing := do
  checkLength .maxStep plan.maxStep
  checkLength .maxJump plan.maxJump
  let xs ← plan.sampling.grid
  let along := marks (plan.sampling.probe curve) plan none xs
  let found := runs along
  let drawable := found.filter fun run => 2 ≤ run.length
  return { segments := drawable.map (·.map Sample.point)
           dropped := found.length - drawable.length
           tally := .ofSamples (takenSamples along) }

def Drawing.event (drawing : Drawing) (source : String) : Event where
  level := .debug
  message := "segmented curve"
  fields := [("source", .quoted source), ("segments", .count drawing.segments.length),
    ("dropped", .count drawing.dropped), ("invalid", .count drawing.tally.invalid)]

end Curves

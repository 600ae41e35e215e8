import Curves.CommandLine.Command
import Curves.CommandLine.Storage
import Curves.Csv.Read
import Curves.Csv.Write
import Curves.Formula

/-!
# Running commands

A command prints something, reports events and succeeds or fails. Running it touches files only
through a storage.
-/

namespace Curves.CommandLine

/-- Why a command fails: what was attempted, and why it was not possible. -/
structure Failure where
  message : String
  causes : List String := []
  deriving DecidableEq

namespace Failure

/-- A text in lines, of which the first begins with `first` and all others with `later`. -/
def indent (first later text : String) : List String :=
  match text.splitOn "\n" with
  | [] => []
  | line :: rest => (first ++ line) :: rest.map (later ++ ·)

/-- The lines that tell about a failure. Causes are numbered if there are several. -/
def lines (failure : Failure) : List String :=
  indent "Error: " "" failure.message ++
    match failure.causes with
    | [] => []
    | [cause] => ["", "Caused by:"] ++ indent "    " "    " cause
    | causes =>
      ["", "Caused by:"] ++ causes.zipIdx.flatMap fun (cause, i) =>
        let number := toString i
        indent ("".pushn ' ' (5 - number.length) ++ number ++ ": ") "       " cause

end Failure

structure Report where
  events : List Event := []
  /-- What is printed. -/
  output : List UInt8 := []
  /-- Further lines for the user, or the reason of a failure. -/
  result : Except Failure (List String) := .ok []

namespace Report

/-- The report with events before its own. -/
def after (events : List Event) (report : Report) : Report :=
  { report with events := events ++ report.events }

def failed (message : String) (causes : List String) : Report :=
  { result := .error { message, causes } }

def succeeds (report : Report) : Bool := report.result.isOk

/-- The lines on the error stream: events from `level` on, and then the result. -/
def errorLines (report : Report) (level : Level) : List String :=
  (report.events.filter fun event => level.rank ≤ event.level.rank).map Event.line ++
    match report.result with
    | .ok lines => lines
    | .error failure => failure.lines

end Report

def printed (lines : List String) : List UInt8 :=
  lines.flatMap fun line => Text.encode (line ++ "\n")

/-- Reads the values in a file. A directory can be opened and fails only when it is read. -/
def readValues (file : ValueFile) (content : Except StorageError (List UInt8)) :
    Except Csv.Error Csv.Column :=
  match content with
  | .ok text => Csv.readColumn file.selection text
  | .error .isADirectory => .error (.refused StorageError.isADirectory.message)
  | .error e => .error (.io e.message)

/-- Prints the values of an expression. -/
def evaluate (conventions : Conventions) (expression : String) (xs : List Float) : Report :=
  if xs.isEmpty then .failed "No x values given; pass them as arguments or with --input" []
  else
    let f := Formula.ofSource expression conventions
    let written := Csv.Written.ofPoints {} (xs.map fun x => (x, f.eval x))
    { events := f.events ++ [written.event], output := written.text }

/-- Prints what is wrong with an expression. -/
def check (conventions : Conventions) (expression : String) : Report :=
  let f := Formula.ofSource expression conventions
  if f.isClean then { events := f.events, output := printed [f.source ++ ": ok"] }
  else
    let zero := if f.hasError then ["  expression always evaluates to 0"] else []
    { events := f.events
      output := printed (f.source :: f.diagnostics.map (fun d => "  " ++ d.display) ++ zero)
      result := .error
        { message := toString f.diagnostics.length ++ " diagnostic(s) in '" ++ f.source ++ "'" } }

def coordinates (points : List Point) : List (Float × Float) := points.map fun p => (p.x, p.y)

def curveTable (f : Formula) (sampling : Sampling) (rendering : Rendering)
    (format : Csv.Format) : Except SamplingProblem (Event × Csv.Written) :=
  match rendering with
  | .grid => do
    let line ← sampling.polyline f.eval
    return (line.sampledEvent f.source, .ofPoints format (coordinates line.points))
  | .refined maxStep => do
    let line ← sampling.refinedPolyline f.eval maxStep
    return (line.refinedEvent f.source, .ofPoints format (coordinates line.points))
  | .segments maxStep maxJump => do
    let plan : Segmentation := { sampling, maxStep, maxJump }
    let drawing ← plan.drawing f.eval
    return (drawing.event f.source, .ofSegments format (drawing.segments.map coordinates))

def lookupTable (f : Formula) (tabulation : Tabulation) (format : Csv.Format) :
    Except SamplingProblem (Event × Csv.Written) := do
  let table ← tabulation.table f.eval
  return (table.event f.source,
    .ofValues format (table.values.toList.map Number.ofSingle))

section

variable {m : Type → Type} [Monad m]

/-- Prints a table or stores it in a file. -/
def deliver (storage : Storage m) (path : Option String) (written : Csv.Written) : m Report :=
  match path with
  | none => return { events := [written.event], output := written.text }
  | some path => do
    match ← storage.write path written.text with
    | .ok () =>
      let line := "Wrote " ++ toString written.rows ++ " rows to '" ++ path ++ "'"
      return { events := [written.event], result := .ok [line] }
    | .error e =>
      return .failed ("Failed to write '" ++ path ++ "'") (Csv.Error.io e.message).chain

/-- Delivers the table of a formula, or says why there is none. -/
def deliverTable (storage : Storage m) (f : Formula) (target : Target) (what : String)
    (made : Except SamplingProblem (Event × Csv.Written)) : m Report := do
  match made with
  | .ok (event, written) =>
    return (← deliver storage target.path written).after (f.events ++ [event])
  | .error e => return (Report.failed ("Invalid " ++ what ++ " options") [e.message]).after f.events

def Command.run (storage : Storage m) (conventions : Conventions) : Command → m Report
  | .eval expression xs none => return evaluate conventions expression xs
  | .eval expression xs (some file) => do
    match readValues file (← storage.read file.path) with
    | .ok column =>
      return (evaluate conventions expression (xs ++ column.values)).after [column.event]
    | .error e => return .failed ("Failed to read '" ++ file.path ++ "'") e.chain
  | .sample expression sampling rendering target =>
    let f := Formula.ofSource expression conventions
    deliverTable storage f target "sampling" (curveTable f sampling rendering target.format)
  | .table expression tabulation target =>
    let f := Formula.ofSource expression conventions
    deliverTable storage f target "lookup table" (lookupTable f tabulation target.format)
  | .check expression => return CommandLine.check conventions expression

def Invocation.run (storage : Storage m) (invocation : Invocation) : m Report :=
  invocation.command.run storage invocation.options.conventions

end

end Curves.CommandLine

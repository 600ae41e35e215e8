import Curves.CommandLine.Grammar
import Curves.CommandLine.Value
import Curves.Expr.Function
import Curves.Sampling.Drawing
import Curves.Sampling.LookupTable

/-!
# Commands

The commands and their options. Three options belong to all commands and can also stand in front
of the command.
-/

namespace Curves.CommandLine

structure CommonOptions where
  logLevel : Option Level := none
  absoluteSqrt : Bool := false
  commonLog : Bool := false
  deriving DecidableEq

namespace CommonOptions

/-- Options in front of a command together with those behind it, which win. -/
def merge (front behind : CommonOptions) : CommonOptions where
  logLevel := behind.logLevel <|> front.logLevel
  absoluteSqrt := front.absoluteSqrt || behind.absoluteSqrt
  commonLog := front.commonLog || behind.commonLog

/-- The numeric conventions that the options ask for. -/
def conventions (options : CommonOptions) : Conventions where
  sqrt := if options.absoluteSqrt then .absolute else .strict
  log := if options.commonLog then .common else .natural

end CommonOptions

structure ValueFile where
  path : String
  selection : Csv.Selection
  deriving DecidableEq

/-- How a curve becomes a table. -/
inductive Rendering where
  | grid
  | refined (maxStep : Float)
  | segments (maxStep maxJump : Float)
  deriving DecidableEq

/-- Where a table goes and what it looks like. -/
structure Target where
  /-- The file to be written; without it, the table is printed. -/
  path : Option String := none
  format : Csv.Format := {}
  deriving DecidableEq

inductive Command where
  /-- Prints the values of an expression. -/
  | eval (expression : String) (xs : List Float) (file : Option ValueFile)
  /-- Samples an expression over a window. -/
  | sample (expression : String) (sampling : Sampling) (rendering : Rendering) (target : Target)
  /-- Tabulates an expression. -/
  | table (expression : String) (tabulation : Tabulation) (target : Target)
  /-- Prints what is wrong with an expression. -/
  | check (expression : String)
  deriving DecidableEq

/-- An option without a value. -/
def Parameter.flag {σ : Type} (long : String) (set : σ → σ) : Parameter σ where
  long := long
  effect := .mark fun s => .ok (set s)

/-- An option whose value is read by `read`. -/
def Parameter.value {σ α : Type} (long : String) (letter : Option Char)
    (read : List Char → Option α) (set : α → σ → σ) : Parameter σ where
  long := long
  letter := letter
  effect := .store fun text s => (readValue long read text).map fun a => set a s

def Parameter.help {σ : Type} : Parameter σ where
  long := "help"
  letter := some 'h'
  effect := .mark fun _ => .error .help

def CommonOptions.parameters : List (Parameter CommonOptions) :=
  [.value "log-level" none readLevel? fun level s => { s with logLevel := some level },
    .flag "sqrt-abs" fun s => { s with absoluteSqrt := true },
    .flag "common-log" fun s => { s with commonLog := true },
    .help]

def CommonOptions.grammar : Grammar CommonOptions := { parameters := parameters }

/-- What has been read of a command with the options `own`. -/
structure Draft (α : Type) where
  common : CommonOptions := {}
  expression : Option String := none
  own : α

namespace Draft

def grammar {α : Type} (own : List (Parameter α)) (arguments : List (Argument (Draft α)) := [])
    (negativeNumbers : Bool := false) : Grammar (Draft α) where
  parameters :=
    own.map (Parameter.within Draft.own fun a d => { d with own := a }) ++
      CommonOptions.parameters.map (Parameter.within Draft.common fun c d => { d with common := c })
  arguments :=
    { anyValue := true, set := fun word d => .ok { d with expression := some word } } :: arguments
  negativeNumbers := negativeNumbers

/-- Turns a draft into a command once its expression is known. -/
def complete {α : Type} (d : Draft α) (command : String → Except Misuse Command) :
    Except Misuse (CommonOptions × Command) :=
  match d.expression with
  | none => .error .noExpression
  | some expression => (command expression).map (d.common, ·)

end Draft

structure EvalOptions where
  xs : List Float := []
  path : Option String := none
  column : Csv.ColumnChoice := .place 0
  header : Bool := false

namespace EvalOptions

def grammar : Grammar (Draft EvalOptions) :=
  Draft.grammar
    [.value "input" (some 'i') readPath? fun path s => { s with path := some path },
      .value "column" (some 'c') (fun text => some (readColumn (String.ofList text)))
        fun column s => { s with column },
      .flag "header" fun s => { s with header := true }]
    [{ many := true
       set := fun word d => (readValue "x" Number.read? word).map fun x =>
        { d with own := { d.own with xs := d.own.xs ++ [x] } } }]
    true

def file (options : EvalOptions) : Option ValueFile :=
  options.path.map fun path =>
    { path, selection := { header := options.header, column := options.column } }

end EvalOptions

def Target.parameters : List (Parameter Target) :=
  [.value "output" (some 'o') readPath? fun path s => { s with path := some path },
    .flag "no-header" fun s => { s with format := { s.format with header := false } },
    .value "precision" none Number.readCount?
      fun places s => { s with format := { s.format with places := some places.toNat } },
    .flag "skip-invalid" fun s => { s with format := { s.format with nonFinite := .leftOut } }]

/-- The options of `sample`. -/
structure CurveOptions where
  sampling : Sampling := {}
  adaptive : Option Float := none
  segments : Bool := false
  maxDraw : Float := 10.0
  maxSegment : Float := 1.0
  target : Target := {}

namespace CurveOptions

def clampParameter : Parameter Sampling where
  long := "clamp"
  anyValue := true
  effect := .store fun text s =>
    match readClamp text with
    | .ok bounds => .ok { s with clamp := some bounds }
    | .error problem => .error (.badClamp problem)

def samplingParameters : List (Parameter Sampling) :=
  [.value "from" none Number.read? fun low s => { s with low },
    .value "to" none Number.read? fun high s => { s with high },
    .value "resolution" (some 'r') Number.readCount? fun resolution s => { s with resolution },
    .value "grid" none readSpacing? fun spacing s => { s with spacing },
    clampParameter,
    .flag "guard-zero" fun s => { s with guard := some {} }]

def grammar : Grammar (Draft CurveOptions) :=
  Draft.grammar
    (samplingParameters.map
        (.within CurveOptions.sampling fun sampling s => { s with sampling }) ++
      [.value "adaptive" none Number.read? fun length s => { s with adaptive := some length },
        .flag "segments" fun s => { s with segments := true },
        .value "max-draw" none Number.read? fun maxDraw s => { s with maxDraw },
        .value "max-segment" none Number.read? fun maxSegment s => { s with maxSegment }] ++
      Target.parameters.map (.within CurveOptions.target fun target s => { s with target }))
    [] true

/-- How the curve becomes a table; two ways exclude each other. -/
def rendering (options : CurveOptions) : Except Misuse Rendering :=
  match options.adaptive, options.segments with
  | some _, true => .error (.conflict "adaptive" "segments")
  | some length, false => .ok (.refined length)
  | none, true => .ok (.segments options.maxSegment options.maxDraw)
  | none, false => .ok .grid

end CurveOptions

/-- The options of `lut`. -/
structure TabulationOptions where
  tabulation : Tabulation := {}
  target : Target := {}

def TabulationOptions.grammar : Grammar (Draft TabulationOptions) :=
  Draft.grammar
    (.value "size" none Number.readCount?
        (fun size s => { s with tabulation := { s.tabulation with size } }) ::
      .value "range" none Number.read?
        (fun width s => { s with tabulation := { s.tabulation with width } }) ::
      Target.parameters.map (.within TabulationOptions.target fun target s => { s with target }))

/-- The commands by name, each with a reader for the words behind it. -/
def commandReader? : String → Option (List String → Except Misuse (CommonOptions × Command))
  | "eval" => some fun words => do
    let d ← EvalOptions.grammar.read { own := {} } words
    d.complete fun expression => .ok (.eval expression d.own.xs d.own.file)
  | "sample" => some fun words => do
    let d ← CurveOptions.grammar.read { own := {} } words
    d.complete fun expression => do
      return .sample expression d.own.sampling (← d.own.rendering) d.own.target
  | "lut" => some fun words => do
    let d ← TabulationOptions.grammar.read { own := {} } words
    d.complete fun expression => .ok (.table expression d.own.tabulation d.own.target)
  | "check" => some fun words => do
    let d ← (Draft.grammar []).read { own := () } words
    d.complete fun expression => .ok (.check expression)
  | _ => none

structure Invocation where
  options : CommonOptions
  command : Command
  deriving DecidableEq

namespace Invocation

def ofWords (words : List String) : Except Misuse Invocation := do
  let front := CommonOptions.grammar
  let (reading, command?) ← front.readTo commandReader? (front.start {}) words
  match command? with
  | none => do
    let _ ← reading.settle
    .error .noCommand
  | some (read, rest) =>
    let (behind, command) ← read rest
    return { options := (← reading.settle).settings.merge behind, command }

/-- The least urgent level that is reported. Checking prints what is wrong, so it reports errors
only unless more is asked for. -/
def logLevel (invocation : Invocation) : Level :=
  match invocation.options.logLevel, invocation.command with
  | some level, _ => level
  | none, .check _ => .error
  | none, _ => .warn

end Invocation

end Curves.CommandLine

import Curves.Expr.Parser
import Curves.Expr.Source

/-!
# Formulas

A formula is a source that has been read once and can be evaluated any number of times. Every
text is a formula: anomalies are kept as diagnostics, and a formula with an error among them has
the value zero everywhere.
-/

namespace Curves

/-- An expression that is ready for evaluation. -/
structure Formula where
  /-- The normalized source. -/
  source : String
  tree : Expr
  conventions : Conventions
  diagnostics : List Diagnostic
  deriving BEq, DecidableEq

namespace Formula

def ofSource (source : String) (conventions : Conventions := {}) : Formula :=
  let normalized := normalizeChars source.toList
  let analysis := parse normalized
  { source := String.ofList normalized
    tree := analysis.tree
    conventions
    diagnostics := analysis.diagnostics }

/-- Whether an error makes the formula zero everywhere. -/
def hasError (f : Formula) : Bool := f.diagnostics.any Diagnostic.isError

def isClean (f : Formula) : Bool := f.diagnostics.isEmpty

/-- Whether the value can depend on `x`. -/
def usesVariable (f : Formula) : Bool := !f.hasError && f.tree.usesVariable

def eval (f : Formula) (x : Float) : Float :=
  if f.hasError then 0.0 else f.tree.eval f.conventions x

/-- The values at `xs` in the places of `out`, as far as both reach; the rest of `out` stays. -/
def overwrite (f : Formula) (xs out : List Float) : List Float :=
  List.zipWith (fun x _ => f.eval x) xs out ++ out.drop xs.length

def under (f : Formula) (conventions : Conventions) : Formula := { f with conventions }

/-- What reading the formula reports. -/
def events (f : Formula) : List Event :=
  f.diagnostics.map (Diagnostic.event f.source) ++
    [{ level := .trace
       message := "compiled expression"
       fields := [("source", .plain f.source), ("nodes", .count f.tree.size),
        ("diagnostics", .count f.diagnostics.length)] }]

/-- A formula with an error is zero everywhere. -/
@[simp] theorem eval_of_hasError {f : Formula} (h : f.hasError) (x : Float) :
    f.eval x = 0.0 := by simp [eval, h]

end Formula

/-- The tree of a source without anomalies, or the first anomaly. -/
def Expr.ofSource (source : String) : Except Diagnostic Expr :=
  let analysis := parse (normalizeChars source.toList)
  match analysis.diagnostics with
  | [] => .ok analysis.tree
  | first :: _ => .error first

end Curves

import Curves.Expr.Basic
import Curves.Number.Integral

/-!
# Functions and their conventions

The names of the functions, their values, and the two conventions on which users differ: what
`sqrt` does with a negative argument, and what the base of `log` is. `ln` is always natural, and
both logarithms are NaN for arguments that are not positive.
-/

namespace Curves

/-- What `sqrt` does with a negative argument. -/
inductive RootConvention where
  /-- The result is NaN. -/
  | strict
  /-- The root of the absolute value is taken. -/
  | absolute
  deriving DecidableEq, Repr

/-- The base of `log`. -/
inductive LogConvention where
  | natural
  /-- Base ten. -/
  | common
  deriving DecidableEq, Repr

/-- The conventions under which an expression is evaluated. -/
structure Conventions where
  sqrt : RootConvention := .strict
  log : LogConvention := .natural
  deriving DecidableEq, Repr

namespace NamedFunction

/-- All functions in the order of their introduction. -/
def all : List NamedFunction :=
  [.sin, .cos, .tan, .sqrt, .abs, .log, .ln, .exp, .floor, .ceil, .round]

def name : NamedFunction → String
  | .sin => "sin"
  | .cos => "cos"
  | .tan => "tan"
  | .sqrt => "sqrt"
  | .abs => "abs"
  | .log => "log"
  | .ln => "ln"
  | .exp => "exp"
  | .floor => "floor"
  | .ceil => "ceil"
  | .round => "round"

def ofName? (name : String) : Option NamedFunction :=
  all.find? fun function => function.name == name

def apply (function : NamedFunction) (conventions : Conventions) (x : Float) : Float :=
  match function with
  | .sin => x.sin
  | .cos => x.cos
  | .tan => x.tan
  | .sqrt =>
    match conventions.sqrt with
    | .strict => x.sqrt
    | .absolute => x.abs.sqrt
  | .abs => x.abs
  | .log =>
    if x > 0.0 then
      match conventions.log with
      | .natural => x.log
      | .common => x.log10
    else 0.0 / 0.0
  | .ln => if x > 0.0 then x.log else 0.0 / 0.0
  | .exp => x.exp
  | .floor => Number.floor x
  | .ceil => Number.ceiling x
  | .round => Number.roundEven x

/-- Functions are told apart by their names. -/
@[simp] theorem ofName?_name (function : NamedFunction) :
    ofName? function.name = some function := by
  cases function <;> decide

end NamedFunction

def Operator.apply : Operator → Float → Float → Float
  | .add, a, b => a + b
  | .subtract, a, b => a - b
  | .multiply, a, b => a * b
  | .divide, a, b => a / b
  | .power, a, b => a.pow b

/-- The value of an expression at `x`. -/
def Expr.eval (conventions : Conventions) (x : Float) : Expr → Float
  | .number value => value
  | .var => x
  | .missing | .unknownName _ | .unknownCall _ _ => 0.0
  | .negate e => -e.eval conventions x
  | .binary op left right => op.apply (left.eval conventions x) (right.eval conventions x)
  | .square e =>
    let v := e.eval conventions x
    v * v
  | .cube e =>
    let v := e.eval conventions x
    v * v * v
  | .call function e => function.apply conventions (e.eval conventions x)

end Curves

import Curves.Formula

/-!
# Equations from fragments

An equation grows by fragments. A fragment that begins with a sign extends the sum and is appended
as it is; any other one multiplies what is there already.
-/

namespace Curves

/-- A growing equation. -/
structure Equation where
  text : String := ""
  deriving DecidableEq, Repr

namespace Equation

def isSigned (fragment : String) : Bool := fragment.startsWith '+' || fragment.startsWith '-'

def isEmpty (equation : Equation) : Bool := equation.text.isEmpty

/-- The equation with a fragment more. -/
def append (equation : Equation) (fragment : String) : Equation :=
  if isSigned fragment || equation.isEmpty then ⟨equation.text ++ fragment⟩
  else ⟨equation.text ++ "*" ++ fragment⟩

def extend (equation : Equation) (fragments : List String) : Equation :=
  fragments.foldl append equation

def clear (_ : Equation) : Equation := {}

def formula (equation : Equation) (conventions : Conventions := {}) : Formula :=
  .ofSource equation.text conventions

/-- What appending `fragment` reports once it is there. -/
def event (equation : Equation) (fragment : String) : Event where
  level := .debug
  message := "appended to equation"
  fields := [("fragment", .quoted fragment), ("equation", .plain equation.text)]

/-- What extending by some fragments reports. -/
def extendEvents (equation : Equation) : List String → List Event
  | [] => []
  | fragment :: rest =>
    let next := equation.append fragment
    next.event fragment :: next.extendEvents rest

end Equation

end Curves

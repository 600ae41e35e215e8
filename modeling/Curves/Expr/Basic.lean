/-!
# Expressions

The tree of an expression in the single variable `x`, with what can be read off it: whether its
value can depend on `x`, and its number of nodes.

Trees are built from any text. A factor that could not be read is `missing`, and a name that is
no function is kept with its argument, if it has one; all three count as zero.
-/

namespace Curves

inductive Operator where
  | add
  | subtract
  | multiply
  | divide
  | power
  deriving DecidableEq, Repr

inductive NamedFunction where
  | sin
  | cos
  | tan
  | sqrt
  | abs
  | log
  | ln
  | exp
  | floor
  | ceil
  | round
  deriving DecidableEq, Repr

/-- An expression in `x`. -/
inductive Expr where
  /-- A literal or a named constant. -/
  | number (value : Float)
  /-- The variable `x`. -/
  | var
  /-- A factor that could not be read. -/
  | missing
  | negate (operand : Expr)
  | binary (op : Operator) (left right : Expr)
  | square (operand : Expr)
  | cube (operand : Expr)
  | call (function : NamedFunction) (argument : Expr)
  /-- A name without an argument. -/
  | unknownName (name : String)
  /-- An argument after a name that is no function. -/
  | unknownCall (name : String) (argument : Expr)
  deriving BEq, DecidableEq, Inhabited

namespace Expr

/-- Whether the value can depend on `x`. The argument of an unknown function has no influence on
the value. -/
def usesVariable : Expr → Bool
  | .var => true
  | .number _ | .missing | .unknownName _ | .unknownCall _ _ => false
  | .negate e | .square e | .cube e | .call _ e => e.usesVariable
  | .binary _ left right => left.usesVariable || right.usesVariable

/-- The number of nodes. -/
def size : Expr → Nat
  | .number _ | .var | .missing | .unknownName _ => 1
  | .negate e | .square e | .cube e | .call _ e | .unknownCall _ e => 1 + e.size
  | .binary _ left right => 1 + left.size + right.size

end Expr

end Curves

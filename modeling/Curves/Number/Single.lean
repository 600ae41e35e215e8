/-!
# Single precision

Rounding a double to single precision, and the exact way back. A double beyond the range of
single precision becomes infinite.
-/

namespace Curves.Number

open Float.Model (Format)

/-- The single-precision value nearest to `x`, the one with even mantissa from halfway. -/
def toSingle (x : Float) : Float32 :=
  Float32.ofModel <| .pack <|
    match x.toModel.unpack with
    | .finite sign mantissa exponent _ => .round Format.binary32 sign mantissa exponent
    | special => special

/-- The double that equals `x`. -/
def ofSingle (x : Float32) : Float :=
  Float.ofModel <| .pack <|
    match x.toModel.unpack with
    | .finite sign mantissa exponent _ => .round Format.binary64 sign mantissa exponent
    | special => special

example : toSingle 1e300 = 1.0 / 0.0 ∧ ofSingle (toSingle 0.1) = 0.10000000149011612 := by
  decide +kernel

end Curves.Number

import Curves.Number.Rounding

/-!
# Integral values of doubles

`floor`, `ceiling`, `truncate`, `roundAway` and `roundEven` take a double to an integral double. A
result that is zero keeps the sign of the argument; infinities and NaN are integral already.
-/

namespace Curves.Number

open Float.Model (Format UnpackedFloat)
open Float.Model.UnpackedFloat (Sign)

/-- The double nearest to `± magnitude * 2 ^ exponent`. -/
def ofScaled (sign : Sign) (magnitude : Nat) (exponent : Int) : Float :=
  Float.ofModel (.pack (.round Format.binary64 sign magnitude exponent))

/-- Rounds to an integral double in the given direction. -/
def toIntegral (direction : Direction) (x : Float) : Float :=
  match x.toModel.unpack with
  | .finite sign mantissa exponent _ =>
    if 0 ≤ exponent then x
    else ofScaled sign (direction.quotient sign mantissa (Nat.pow 2 (-exponent).toNat)) 0
  | _ => x

/-- The greatest integral double that is not above `x`. -/
def floor (x : Float) : Float := toIntegral .down x

/-- The least integral double that is not below `x`. -/
def ceiling (x : Float) : Float := toIntegral .up x

/-- The integral double next to `x` towards zero. -/
def truncate (x : Float) : Float := toIntegral .towardsZero x

/-- The integral double nearest to `x`, the one away from zero from halfway. -/
def roundAway (x : Float) : Float := toIntegral .nearestAway x

/-- The integral double nearest to `x`, the even one from halfway. There half of `x` is not halfway
between two integers, so twice what it is rounded to is the even neighbour of `x`. -/
def roundEven (x : Float) : Float :=
  if (x - truncate x).abs == 0.5 then 2.0 * roundAway (x / 2.0) else roundAway x

example : roundEven 2.5 = 2 ∧ roundEven 3.5 = 4 ∧ roundEven (-0.5) = -0.0 := by decide +kernel

example : floor (-1.5) = -2 ∧ ceiling (-1.5) = -1 ∧ ceiling (-0.25) = -0.0 := by decide +kernel

end Curves.Number

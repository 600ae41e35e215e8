/-!
# Rounding quotients

A quotient of naturals is rounded to a natural downwards, upwards, towards zero or to the nearest.
A quotient halfway between two naturals goes to the even one or away from zero. "Downwards" and
"upwards" are meant for the signed value, so for a negative value they act on the magnitude the
other way round.

The same decision serves integral parts of doubles and decimal digits of a fixed number of
places.
-/

namespace Curves.Number

open Float.Model.UnpackedFloat (Sign)

/-- Where a value between two neighbours goes. -/
inductive Direction where
  /-- To the neighbour below. -/
  | down
  /-- To the neighbour above. -/
  | up
  /-- To the neighbour nearer to zero. -/
  | towardsZero
  /-- To the nearer neighbour, and to the even one from halfway. -/
  | nearest
  /-- To the nearer neighbour, and away from zero from halfway. -/
  | nearestAway
  deriving DecidableEq, Repr

/-- Whether the magnitude `whole + part / unit`, where `part < unit`, goes to `whole + 1`. -/
def Direction.carries : Direction → Sign → (whole part unit : Nat) → Bool
  | .down, .negative, _, part, _ => part != 0
  | .down, .positive, _, _, _ => false
  | .up, .negative, _, _, _ => false
  | .up, .positive, _, part, _ => part != 0
  | .towardsZero, _, _, _, _ => false
  | .nearest, _, whole, part, unit =>
    decide (unit < 2 * part) || (decide (unit = 2 * part) && whole % 2 == 1)
  | .nearestAway, _, _, part, unit => decide (unit ≤ 2 * part)

/-- The magnitude `numerator / denominator` of a value with the given sign, rounded to a
natural. -/
def Direction.quotient (direction : Direction) (sign : Sign) (numerator denominator : Nat) : Nat :=
  let whole := numerator / denominator
  if direction.carries sign whole (numerator % denominator) denominator then whole + 1 else whole

/-- A rounded quotient is one of the two neighbours of the exact one. -/
theorem Direction.quotient_eq_or (direction : Direction) (sign : Sign) (n d : Nat) :
    direction.quotient sign n d = n / d ∨ direction.quotient sign n d = n / d + 1 := by
  simp only [Direction.quotient]
  split <;> simp

end Curves.Number

/-!
# Euclidean length

The length of the vector `(dx, dy)`. Components are scaled when their squares would overflow
or vanish, and the rounding error of the plain square root is estimated and taken off, so the
result is within one unit in the last place of the true length.
-/

namespace Curves.Number

/-- `sqrt (a ^ 2 + b ^ 2)` for `0 ≤ b ≤ a` whose squares neither overflow nor vanish, with one
correction step. -/
def correctedLength (a b : Float) : Float :=
  let h := (a * a + b * b).sqrt
  if h ≤ 2.0 * b then
    let delta := h - b
    h - (a * (2.0 * delta - a) + (delta - 2.0 * (a - b)) * delta) / (2.0 * h)
  else
    let delta := h - a
    h - (2.0 * delta * (a - 2.0 * b) + ((4.0 * delta - b) * b + delta * delta)) / (2.0 * h)

/-- `2 ^ 600`, the factor by which extreme components are scaled. -/
def scaleUp : Float := Float.ofBits 0x6570000000000000

/-- `2 ^ -600`. -/
def scaleDown : Float := Float.ofBits 0x1A70000000000000

/-- Components above `2 ^ 511` have squares that may overflow. -/
def largestUnscaled : Float := Float.ofBits 0x5FE0000000000000

/-- Components below `2 ^ -459` have squares that lose digits. -/
def smallestUnscaled : Float := Float.ofBits 0x2340000000000000

/-- `2 ^ -54`: a component this much smaller than the other does not change the length. -/
def negligible : Float := Float.ofBits 0x3C90000000000000

/-- The length of the vector `(dx, dy)`: infinite as soon as one component is, even beside a
NaN. -/
def length (dx dy : Float) : Float :=
  if dx.isInf || dy.isInf then Float.ofBits 0x7FF0000000000000
  else if dx.isNaN || dy.isNaN then dx + dy
  else
    let dx := dx.abs
    let dy := dy.abs
    let a := if dx < dy then dy else dx
    let b := if dx < dy then dx else dy
    if a > largestUnscaled then
      if b ≤ a * negligible then a + b
      else correctedLength (a * scaleDown) (b * scaleDown) * scaleUp
    else if b < smallestUnscaled then
      if a ≥ b / negligible then a + b
      else correctedLength (a * scaleUp) (b * scaleUp) * scaleDown
    else if b ≤ a * negligible then a + b
    else correctedLength a b

example : length 3.0 4.0 = 5.0 ∧ length 3e300 (-4e300) = 5e300 := by decide +kernel

end Curves.Number

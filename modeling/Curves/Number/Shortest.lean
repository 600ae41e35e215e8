import Curves.Number.Decimal

/-!
# Shortest decimals

Among the decimals that round to a given positive double, the one with the fewest digits is
found by trying one digit, two digits and so on. On the grid of `n`-digit decimals only the two
neighbours of the exact value can qualify. When both do, the nearer is taken, and the upper one
from halfway. Seventeen digits always suffice.
-/

namespace Curves.Number

/-- A positive rational number, the exact value of a double. -/
structure Ratio where
  numerator : Nat
  denominator : Nat

namespace Ratio

/-- The exact value of `mantissa * 2 ^ exponent`. -/
def ofScaled (mantissa : Nat) (exponent : Int) : Ratio :=
  ⟨mantissa * Nat.pow 2 exponent.toNat, Nat.pow 2 (-exponent).toNat⟩

/-- The exponent `p` with `10 ^ p ≤ r < 10 ^ (p + 1)`. -/
def leadingPower (r : Ratio) : Int :=
  if r.denominator ≤ r.numerator then
    ((Decimal.digitsOf (r.numerator / r.denominator)).length : Int) - 1
  else
    -((Decimal.digitsOf ((r.denominator - 1) / r.numerator)).length : Int)

def inUnits (r : Ratio) (power : Int) : Ratio :=
  ⟨r.numerator * Nat.pow 10 (-power).toNat, r.denominator * Nat.pow 10 power.toNat⟩

end Ratio

/-- The neighbour of `r` on the grid of multiples of `10 ^ power` that reads back as `x`. -/
def readingNeighbour? (x : Float) (r : Ratio) (power : Int) : Option Decimal :=
  let scaled := r.inUnits power
  let below : Decimal := ⟨scaled.numerator / scaled.denominator, power⟩
  let above : Decimal := ⟨below.digits + 1, power⟩
  match below.toFloat == x, above.toFloat == x with
  | true, true =>
    if 2 * (scaled.numerator % scaled.denominator) < scaled.denominator then some below
    else some above
  | true, false => some below
  | false, true => some above
  | false, false => none

/-- The decimal with the fewest digits that reads back as the positive double
`x = mantissa * 2 ^ exponent`. -/
def shortest (x : Float) (mantissa : Nat) (exponent : Int) : Decimal :=
  let r := Ratio.ofScaled mantissa exponent
  let lead := r.leadingPower
  match (List.range 17).findSome? fun (n : Nat) => readingNeighbour? x r (lead - n) with
  | some d => d.trim
  | none => ⟨mantissa * Nat.pow 2 exponent.toNat * Nat.pow 5 (-exponent).toNat, min exponent 0⟩

/-- A neighbour that is chosen reads back. -/
theorem toFloat_of_readingNeighbour? {x : Float} {r : Ratio} {power : Int} {d : Decimal}
    (h : readingNeighbour? x r power = some d) : (d.toFloat == x) = true := by
  simp only [readingNeighbour?] at h
  split at h
  · split at h <;> simp_all
  all_goals simp_all

end Curves.Number

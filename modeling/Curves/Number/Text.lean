import Curves.Number.Rounding
import Curves.Number.Shortest

/-!
# Numbers as text

The written forms of a double. NaN and the infinities are `NaN`, `inf` and `-inf` in all of
them, and zero keeps its sign.

* `text`: the shortest digits that read back, always positional, no point for integral values;
* `tagged`: the same digits, recognisable as a double: `.0` for integral values, and an
  exponent below `10 ^ -4` and from `10 ^ 16` on;
* `fixed`: a given number of places;
* `scientific`: a given number of places after the first digit, and an exponent.

`fixed` and `scientific` round the exact binary value, ties to even.
-/

namespace Curves.Number

open Float.Model.UnpackedFloat (Sign)

/-- The sign mark in front of a magnitude. -/
def signed (sign : Sign) (magnitude : List Char) : String :=
  match sign with
  | .negative => String.ofList ('-' :: magnitude)
  | .positive => String.ofList magnitude

/-- Writes a double whose finite magnitudes are written by `zero` and `magnitude`. -/
def render (zero : List Char) (magnitude : Nat → Int → List Char) (x : Float) : String :=
  match x.toModel.unpack with
  | .notANumber => "NaN"
  | .infinity sign => signed sign ['i', 'n', 'f']
  | .zero sign => signed sign zero
  | .finite sign mantissa exponent _ => signed sign (magnitude mantissa exponent)

/-- The shortest digits that read back, in positional notation. -/
def text (x : Float) : String :=
  render ['0'] (fun m e => (shortest x.abs m e).positional) x

/-- The shortest digits that read back, with a point or an exponent in any case. -/
def tagged (x : Float) : String :=
  render ['0', '.', '0'] (fun m e =>
    let d := shortest x.abs m e
    let lead := d.exponent + (Decimal.digitsOf d.digits).length - 1
    if lead < -4 ∨ 16 ≤ lead then d.scientific
    else if 0 ≤ d.exponent then d.positional ++ ['.', '0']
    else d.positional) x

/-- The value rounded to `places` digits after the point. -/
def fixed (places : Nat) (x : Float) : String :=
  render (Decimal.withPoint (List.replicate (places + 1) '0') places) (fun m e =>
    let scaled := (Ratio.ofScaled m e).inUnits (-places)
    Decimal.withPoint
      (Decimal.digitsOf (Direction.nearest.quotient .positive scaled.numerator scaled.denominator))
      places) x

/-- The value rounded to `places` digits after the first one, with an exponent. -/
def scientific (places : Nat) (x : Float) : String :=
  render (Decimal.withPoint (List.replicate (places + 1) '0') places ++ ['e', '0']) (fun m e =>
    let r := Ratio.ofScaled m e
    let power := r.leadingPower - places
    let scaled := r.inUnits power
    let digits := Direction.nearest.quotient .positive scaled.numerator scaled.denominator
    if digits = Nat.pow 10 (places + 1) then
      (Decimal.mk (Nat.pow 10 places) (power + 1)).scientific
    else (Decimal.mk digits power).scientific) x

end Curves.Number

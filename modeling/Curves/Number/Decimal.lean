/-!
# Decimals

A decimal is a natural number of units `10 ^ exponent`. `toFloat` is the one way from decimals
to doubles: it rounds to nearest, ties to even. Reading a number and choosing the digits to
write both go through it.
-/

namespace Curves.Number

/-- The non-negative decimal `digits * 10 ^ exponent`. -/
structure Decimal where
  digits : Nat
  exponent : Int
  deriving DecidableEq, Repr

namespace Decimal

/-- The double nearest to the decimal. -/
def toFloat (d : Decimal) : Float :=
  Float.ofScientific d.digits (decide (d.exponent < 0)) d.exponent.natAbs

/-- The same decimal without trailing zeros among its digits. -/
def trim (d : Decimal) : Decimal :=
  if d.digits ≠ 0 ∧ d.digits % 10 = 0 then trim ⟨d.digits / 10, d.exponent + 1⟩ else d
termination_by d.digits
decreasing_by omega

def digitsOf (n : Nat) : List Char := Nat.toDigits 10 n

/-- Digits with a point in front of the last `places` of them, and at least one before it. No
point is written for zero places. -/
def withPoint (digits : List Char) (places : Nat) : List Char :=
  if places = 0 then digits
  else
    let padded := List.replicate (places + 1 - digits.length) '0' ++ digits
    let whole := padded.length - places
    padded.take whole ++ '.' :: padded.drop whole

/-- All digits of the decimal in positional notation, however large or small it is. -/
def positional (d : Decimal) : List Char :=
  withPoint (digitsOf (d.digits * Nat.pow 10 d.exponent.toNat)) (-d.exponent).toNat

/-- The first digit, a point and the other digits if there are any, and the exponent of the
first digit after an `e`. -/
def scientific (d : Decimal) : List Char :=
  let digits := digitsOf d.digits
  let places := digits.length - 1
  withPoint digits places ++ 'e' :: (toString (d.exponent + places)).toList

example : positional ⟨15, -1⟩ = ['1', '.', '5'] ∧ positional ⟨5, -3⟩ = ['0', '.', '0', '0', '5'] ∧
    positional ⟨12, 1⟩ = ['1', '2', '0'] := by decide +kernel

end Decimal

end Curves.Number

import Curves.Number.Decimal

/-!
# Reading numbers

A decimal literal is an optional sign, digits with at most one point among or beside them, and
an optional exponent; `inf`, `infinity` and `nan` are read in any case of letters. The value is
the nearest double. Nothing may follow.
-/

namespace Curves.Number

/-- The value of a run of decimal digits. -/
def digitsValue (digits : List Char) : Nat :=
  digits.foldl (fun value c => 10 * value + (c.toNat - '0'.toNat)) 0

/-- An optional sign and what follows it; `true` stands for minus. -/
def splitSign : List Char → Bool × List Char
  | '-' :: rest => (true, rest)
  | '+' :: rest => (false, rest)
  | rest => (false, rest)

/-- The exponent after the digits of a literal: absent, or an `e` and a signed run of digits. -/
def readExponent? : List Char → Option Int
  | [] => some 0
  | e :: rest =>
    if e = 'e' ∨ e = 'E' then
      let (negative, digits) := splitSign rest
      if digits.isEmpty || !digits.all Char.isDigit then none
      else if negative then some (-(digitsValue digits : Int))
      else some (digitsValue digits)
    else none

/-- The decimal denoted by an unsigned literal. -/
def readDecimal? (source : List Char) : Option Decimal :=
  let whole := source.takeWhile Char.isDigit
  let rest := source.dropWhile Char.isDigit
  let (fraction, rest) :=
    match rest with
    | '.' :: rest => (rest.takeWhile Char.isDigit, rest.dropWhile Char.isDigit)
    | rest => ([], rest)
  if whole.isEmpty && fraction.isEmpty then none
  else
    (readExponent? rest).map fun exponent =>
      ⟨digitsValue (whole ++ fraction), exponent - fraction.length⟩

/-- The double denoted by `source`, if it is a number. -/
def read? (source : List Char) : Option Float :=
  let (negative, magnitude) := splitSign source
  let value? :=
    match String.ofList (magnitude.map Char.toLower) with
    | "inf" | "infinity" => some (1.0 / 0.0)
    | "nan" => some (0.0 / 0.0)
    | _ => (readDecimal? magnitude).map Decimal.toFloat
  value?.map fun value => if negative then -value else value

/-- The natural number below `2 ^ 64` denoted by `source`: digits after an optional plus. -/
def readCount? (source : List Char) : Option UInt64 :=
  let digits := match source with
    | '+' :: rest => rest
    | rest => rest
  if digits.isEmpty || !digits.all Char.isDigit then none
  else if digitsValue digits < UInt64.size then some (digitsValue digits).toUInt64
  else none

end Curves.Number

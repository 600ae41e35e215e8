/-!
# Sets of characters

A set of characters is given by the ranges of its code points in increasing order.
-/

namespace Curves.Text

/-- A set of characters as ranges of code points, both ends included. -/
abbrev Ranges := List (Nat × Nat)

def Ranges.has (ranges : Ranges) (c : Char) : Bool :=
  ranges.any fun range => decide (range.1 ≤ c.toNat) && decide (c.toNat ≤ range.2)

end Curves.Text

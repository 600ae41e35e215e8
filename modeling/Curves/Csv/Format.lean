/-!
# Formats and selections

How rows of numbers are laid out in a file, and which numbers are read from one. Delimiter and
quote are single bytes.
-/

namespace Curves.Csv

/-- The bytes that structure a record. -/
structure Dialect where
  /-- Stands between fields. -/
  delimiter : UInt8 := ','.toUInt8
  /-- Encloses fields that hold other special bytes. -/
  quote : UInt8 := '"'.toUInt8
  deriving DecidableEq, Repr

/-- What ends a record that is written. -/
inductive LineEnd where
  | lf
  | crlf
  | cr
  deriving DecidableEq, Repr

def LineEnd.bytes : LineEnd → List UInt8
  | .lf => [10]
  | .crlf => [13, 10]
  | .cr => [13]

/-- What is written for NaN and infinities. -/
inductive NonFiniteForm where
  /-- Their names. -/
  | named
  /-- An empty field. -/
  | blank
  /-- Nothing: the whole row is left out. -/
  | leftOut
  deriving DecidableEq, Repr

structure Format where
  dialect : Dialect := {}
  /-- Whether the names of the columns come first. -/
  header : Bool := true
  lineEnd : LineEnd := .lf
  /-- The digits after the point; without it, the fewest that read back. -/
  places : Option Nat := none
  nonFinite : NonFiniteForm := .named
  deriving DecidableEq, Repr

inductive ColumnChoice where
  /-- By its place, counted from zero. -/
  | place (i : Nat)
  /-- By its name in the header. -/
  | name (name : String)
  deriving DecidableEq, Repr

/-- Which numbers of a text are read. -/
structure Selection where
  dialect : Dialect := {}
  /-- Whether the first record names the columns. -/
  header : Bool := false
  column : ColumnChoice := .place 0
  /-- Whether rows without a value are passed over. -/
  skipsBlanks : Bool := true
  deriving DecidableEq, Repr

end Curves.Csv

import Curves.Csv.Error
import Curves.Csv.Record
import Curves.Event
import Curves.Text.Utf8

/-!
# Writing numbers

Points, segments and plain values become tables of numbers, and tables become text. Each kind of
table has its header; the rows of segments begin with the number of their segment.
-/

namespace Curves.Csv

namespace Format

def field (format : Format) (value : Float) : String :=
  if !value.isFinite && format.nonFinite = .blank then ""
  else
    match format.places with
    | some places => Number.fixed places value
    | none => Number.text value

/-- The fields for the values of a row, unless the row is left out. -/
def fields? (format : Format) (row : List Float) : Option (List String) :=
  if format.nonFinite = .leftOut && row.any (!·.isFinite) then none
  else some (row.map format.field)

def line (format : Format) (fields : List String) : List UInt8 :=
  format.dialect.encodeRecord (fields.map Text.encode) ++ format.lineEnd.bytes

end Format

/-- A table that is ready to be written. -/
structure Written where
  /-- What the rows are called in events. -/
  rowNames : String
  format : Format
  header : List String
  records : List (List String)

namespace Written

def rows (written : Written) : Nat := written.records.length

def lines (written : Written) : List (List String) :=
  if written.format.header then written.header :: written.records else written.records

def text (written : Written) : List UInt8 := written.lines.flatMap written.format.line

def ofPoints (format : Format) (points : List (Float × Float)) : Written :=
  ⟨"points", format, ["x", "y"], points.filterMap fun (x, y) => format.fields? [x, y]⟩

/-- The table of some segments, numbered from zero. -/
def ofSegments (format : Format) (segments : List (List (Float × Float))) : Written where
  rowNames := "segments"
  format := format
  header := ["segment", "x", "y"]
  records := segments.zipIdx.flatMap fun (segment, index) =>
    segment.filterMap fun (x, y) => (format.fields? [x, y]).map (toString index :: ·)

def ofValues (format : Format) (values : List Float) : Written :=
  ⟨"values", format, ["value"], values.filterMap fun value => format.fields? [value]⟩

def event (written : Written) : Event where
  level := .debug
  message := "wrote " ++ written.rowNames
  fields := [("rows", .count written.rows)]

end Written

end Curves.Csv

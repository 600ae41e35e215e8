import Curves.Csv.Error
import Curves.Csv.Record
import Curves.Event
import Curves.Number.Read
import Curves.Text.Blank
import Curves.Text.Utf8

/-!
# Reading numbers

One column of a table is read as numbers. The column is given by its place or by its name in the
header, where blanks around the name and the case of ASCII letters do not count. A number may have
a decimal comma. Reading stops at the first record that is not text or has no number in the
column.
-/

namespace Curves.Csv

/-- The fields of a record as text. If one of them is none, the error names the place of
`origin`. -/
def Record.texts (record origin : Record) : Except Error (List String) :=
  record.fields.zipIdx.mapM fun (field, i) =>
    match Text.decode field with
    | .ok text => .ok text
    | .error valid => .error (.notText origin.index origin.line i origin.byte valid)

def trimmed (text : String) : List Char := Text.trim text.toList

/-- Whether two names differ at most in the case of ASCII letters. -/
def sameName (a b : List Char) : Bool := a.map Char.toLower == b.map Char.toLower

/-- The value of a field, as it stands or with its commas taken for points. -/
def fieldValue? (field : List Char) : Option Float :=
  Number.read? field <|> Number.read? (field.map fun c => if c = ',' then '.' else c)

namespace Selection

def columnIndex (selection : Selection) (records : List Record) : Except Error Nat :=
  match selection.column with
  | .place i => .ok i
  | .name name =>
    if !selection.header then .error (.missingColumn name)
    else do
      let header ← match records with
        | [] => .ok []
        | record :: _ => record.texts record
      match header.findIdx? fun title => sameName (trimmed title) name.toList with
      | some i => return i
      | none => .error (.missingColumn name)

/-- The rows, each with the record at which reading it begins. A header that is not searched for
a name is passed over on the way to the first row. -/
def rows (selection : Selection) (records : List Record) : List (Record × Record) :=
  if !selection.header then records.map fun row => (row, row)
  else
    match selection.column, records with
    | .place _, header :: row :: rest => (row, header) :: rest.map fun row => (row, row)
    | _, _ => (records.drop 1).map fun row => (row, row)

/-- The value of a row with the given fields, or nothing if the row is passed over. -/
def rowValue (selection : Selection) (column row : Nat) (fields : List String) :
    Except Error (Option Float) :=
  match fields[column]? with
  | none =>
    if selection.skipsBlanks then .ok none
    else .error (.badField row column (.absent fields.length))
  | some field =>
    let field := trimmed field
    if field.isEmpty then
      if selection.skipsBlanks then .ok none else .error (.badField row column .empty)
    else
      match fieldValue? field with
      | some value => .ok (some value)
      | none => .error (.badField row column (.notANumber (String.ofList field)))

end Selection

/-- Numbers that have been read. -/
structure Column where
  values : List Float
  /-- The number of rows that were passed over. -/
  skipped : Nat
  /-- The place of the column. -/
  index : Nat
  deriving DecidableEq

def Column.event (column : Column) : Event where
  level := .debug
  message := "read x values"
  fields := [("values", .count column.values.length), ("skipped", .count column.skipped),
    ("column", .count column.index)]

def readColumn (selection : Selection) (text : List UInt8) : Except Error Column := do
  let records := selection.dialect.records text
  let index ← selection.columnIndex records
  let found ← (selection.rows records).mapM fun (row, origin) => do
    let fields ← row.texts origin
    selection.rowValue index (row.index + 1) fields
  return { values := found.filterMap id, skipped := found.countP Option.isNone, index }

end Curves.Csv

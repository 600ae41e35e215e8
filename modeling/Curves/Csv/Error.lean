/-!
# Errors of CSV files

Why numbers cannot be written or read. A row is counted from one, the header included; a column
from zero.
-/

namespace Curves.Csv

/-- Why a field is no value. -/
inductive FieldProblem where
  /-- The row has only so many fields. -/
  | absent (fields : Nat)
  | empty
  | notANumber (field : String)
  deriving DecidableEq, Repr

def FieldProblem.message : FieldProblem → String
  | .absent fields => "row has only " ++ toString fields ++ " fields"
  | .empty => "empty field"
  | .notANumber field => "not a number: '" ++ field ++ "'"

/-- Why a file cannot be written or read. -/
inductive Error where
  /-- The file itself is at fault. -/
  | io (reason : String)
  /-- The file fails while records are written to it or read from it. -/
  | refused (reason : String)
  /-- A field of a record is not text. -/
  | notText (record line field byte index : Nat)
  | badField (row column : Nat) (problem : FieldProblem)
  | missingColumn (name : String)
  deriving DecidableEq, Repr

namespace Error

/-- What is wrong with a field that is not text. -/
def decodingProblem (record line field byte index : Nat) : String :=
  "CSV parse error: record " ++ toString record ++ " (line " ++ toString line ++ ", field: " ++
    toString field ++ ", byte: " ++ toString byte ++ "): invalid utf-8: invalid UTF-8 in field " ++
    toString field ++ " near byte index " ++ toString index

def message : Error → String
  | .io reason => "IO error: " ++ reason
  | .refused reason => "CSV error: " ++ reason
  | .notText record line field byte index =>
    "CSV error: " ++ decodingProblem record line field byte index
  | .badField row column problem =>
    "Parse error at row " ++ toString row ++ ", column " ++ toString column ++ ": " ++
      problem.message
  | .missingColumn name => "Column not found: " ++ name

/-- The wording of what lies behind an error. -/
def cause? : Error → Option String
  | .io reason | .refused reason => some reason
  | .notText record line field byte index => some (decodingProblem record line field byte index)
  | .badField .. | .missingColumn _ => none

def chain (error : Error) : List String := error.message :: error.cause?.toList

end Error

end Curves.Csv

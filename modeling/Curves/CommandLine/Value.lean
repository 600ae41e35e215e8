import Curves.CommandLine.Misuse
import Curves.Csv.Format
import Curves.Event
import Curves.Number.Read
import Curves.Sampling.Basic
import Curves.Text.Blank

/-!
# Values on the command line

How the value of an option is read: numbers, counts, levels, grids, columns, clamp ranges and
paths.
-/

namespace Curves.CommandLine

/-- Reads the value of `name` with a reader that answers nothing for a bad one. -/
def readValue {α : Type} (name : String) (read : List Char → Option α) (value : String) :
    Except Misuse α :=
  match read value.toList with
  | some a => .ok a
  | none => .error (.badValue name value)

/-- The level that a text names, in any case of letters or by its number, the most urgent first. -/
def readLevel? (text : List Char) : Option Level :=
  match Number.readCount? text with
  | some number =>
    match number with
    | 1 => some .error
    | 2 => some .warn
    | 3 => some .info
    | 4 => some .debug
    | 5 => some .trace
    | _ => none
  | none =>
    match String.ofList (text.map Char.toLower) with
    | "error" => some .error
    | "warn" => some .warn
    | "info" => some .info
    | "debug" => some .debug
    | "trace" => some .trace
    | _ => none

def readSpacing? (text : List Char) : Option Spacing :=
  match String.ofList text with
  | "uniform" => some .uniform
  | "pi" => some .piMultiples
  | _ => none

/-- A path, which has at least one character. -/
def readPath? (text : List Char) : Option String :=
  if text.isEmpty then none else some (String.ofList text)

/-- The column that a text selects: by its place if the text is a count, and else by its name. -/
def readColumn (text : String) : Csv.ColumnChoice :=
  match Number.readCount? text.toList with
  | some place => .place place.toNat
  | none => .name text

def readPadded? (text : List Char) : Option Float := Number.read? (Text.trim text)

/-- The clamp range in a text: two ends with a comma between them. -/
def readClamp (text : String) : Except ClampProblem Bounds :=
  let low := text.toList.takeWhile (· ≠ ',')
  match text.toList.dropWhile (· ≠ ',') with
  | [] => .error (.noComma text)
  | _ :: high =>
    match readPadded? low, readPadded? high with
    | none, _ => .error (.badLow (String.ofList low))
    | some _, none => .error (.badHigh (String.ofList high))
    | some l, some h => if l > h then .error (.reversed l h) else .ok ⟨l, h⟩

end Curves.CommandLine

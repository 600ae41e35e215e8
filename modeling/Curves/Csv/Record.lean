import Curves.Csv.Format

/-!
# Records

A CSV text is a sequence of records, a record a sequence of fields, and a field a sequence of
bytes.

Written fields are quoted only if they hold a delimiter, a quote or a byte that ends lines; quotes
inside are doubled. A record that would be an empty line is written as an empty quoted field.

Reading accepts any text. Line ends in front of a record are passed over, so there are no empty
records. A quote is special at the beginning of a field and inside a quoted one; what follows a
closing quote belongs to the field as it is. The place of a record is where the one before it
ended. A byte order mark at the beginning is passed over.
-/

namespace Curves.Csv

def endsLine (b : UInt8) : Bool := b == 10 || b == 13

namespace Dialect

def isSpecial (d : Dialect) (b : UInt8) : Bool := b == d.delimiter || b == d.quote || endsLine b

def quoteField (d : Dialect) (field : List UInt8) : List UInt8 :=
  d.quote :: (field.flatMap (fun b => if b = d.quote then [b, b] else [b]) ++ [d.quote])

def encodeField (d : Dialect) (field : List UInt8) : List UInt8 :=
  if field.any d.isSpecial then d.quoteField field else field

/-- The written form of a record without its line end. -/
def encodeRecord (d : Dialect) (fields : List (List UInt8)) : List UInt8 :=
  let line := [d.delimiter].intercalate (fields.map d.encodeField)
  if line.isEmpty then d.quoteField [] else line

end Dialect

/-- A record that has been read. -/
structure Record where
  fields : List (List UInt8)
  /-- The number of records before it. -/
  index : Nat
  /-- The number of bytes before the record. -/
  byte : Nat
  /-- The line that the record begins on, counted from one. -/
  line : Nat
  deriving DecidableEq, Repr

/-- Where in a record the next byte falls. -/
inductive Mode where
  /-- Before the first field. -/
  | recordStart
  | fieldStart
  /-- In a field, outside quotes. -/
  | plain
  | quoted
  /-- Behind a quote inside a quoted field: either the first of two or the closing one. -/
  | quoteSeen
  deriving DecidableEq, Repr

/-- What has been read of a text. Lists that are still growing are reversed. -/
structure Scan where
  mode : Mode := .recordStart
  field : List UInt8 := []
  fields : List (List UInt8) := []
  records : List Record := []
  /-- The number of records that have been read. -/
  count : Nat := 0
  /-- The number of bytes read. -/
  byte : Nat := 0
  /-- The number of the line reached. -/
  line : Nat := 1
  /-- The place where the record at hand begins. -/
  startByte : Nat := 0
  startLine : Nat := 1

namespace Scan

def push (s : Scan) (b : UInt8) (mode : Mode) : Scan := { s with field := b :: s.field, mode }

def endField (s : Scan) : Scan :=
  { s with field := [], fields := s.field.reverse :: s.fields, mode := .fieldStart }

def endRecord (s : Scan) : Scan :=
  let record : Record :=
    { fields := (s.field.reverse :: s.fields).reverse
      index := s.count
      byte := s.startByte
      line := s.startLine }
  { s with
    field := []
    fields := []
    records := record :: s.records
    count := s.count + 1
    startByte := s.byte
    startLine := s.line
    mode := .recordStart }

/-- What a byte means outside quotes when it is not a quote at the beginning of a field. -/
def unquoted (d : Dialect) (s : Scan) (b : UInt8) : Scan :=
  if b = d.delimiter then s.endField
  else if endsLine b then s.endRecord
  else s.push b .plain

def first (d : Dialect) (s : Scan) (b : UInt8) : Scan :=
  if b = d.quote then { s with mode := .quoted } else s.unquoted d b

def step (d : Dialect) (s : Scan) (b : UInt8) : Scan :=
  let s := { s with byte := s.byte + 1, line := if b = 10 then s.line + 1 else s.line }
  match s.mode with
  | .recordStart => if endsLine b then s else s.first d b
  | .fieldStart => s.first d b
  | .plain => s.unquoted d b
  | .quoted => if b = d.quote then { s with mode := .quoteSeen } else s.push b .quoted
  | .quoteSeen => if b = d.quote then s.push b .quoted else s.unquoted d b

/-- The records of a text that ends here. -/
def finish (s : Scan) : List Record :=
  match s.mode with
  | .recordStart => s.records.reverse
  | _ => s.endRecord.records.reverse

end Scan

/-- The mark that some programs put in front of a text. -/
def byteOrderMark : List UInt8 := [0xEF, 0xBB, 0xBF]

def Dialect.records (d : Dialect) (text : List UInt8) : List Record :=
  if byteOrderMark.isPrefixOf text then
    ((text.drop byteOrderMark.length).foldl (Scan.step d) { byte := byteOrderMark.length }).finish
  else (text.foldl (Scan.step d) {}).finish

end Curves.Csv

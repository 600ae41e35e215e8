import Curves.Csv.Write

/-!
# Blocks

Text is handed on in blocks. A block ends where the next piece does not fit, and the last block
waits until the table is complete. A piece is a single byte, or two that are not divided: a
doubled quote, the quotes of an empty field that stands alone, and a line end of two bytes.

The pieces of a table are its text (`Written.flatten_pieces`), and all of it is either handed on or
waiting (`Written.sent_add_waiting`).
-/

namespace Curves.Csv

namespace Dialect

/-- The pieces of a field. -/
def fieldPieces (d : Dialect) (field : List UInt8) : List (List UInt8) :=
  if field.any d.isSpecial then
    [d.quote] :: (field.map (fun b => if b = d.quote then [b, b] else [b]) ++ [[d.quote]])
  else field.map ([·])

theorem flatten_fieldPieces (d : Dialect) (field : List UInt8) :
    (d.fieldPieces field).flatten = d.encodeField field := by
  unfold fieldPieces encodeField quoteField
  split
  · simp [List.flatMap]
  · induction field with
    | nil => rfl
    | cons b rest ih => simp_all

def joinedPieces (d : Dialect) (fields : List (List UInt8)) : List (List UInt8) :=
  [[d.delimiter]].intercalate (fields.map d.fieldPieces)

theorem flatten_joinedPieces (d : Dialect) (fields : List (List UInt8)) :
    (d.joinedPieces fields).flatten = [d.delimiter].intercalate (fields.map d.encodeField) := by
  unfold joinedPieces List.intercalate
  induction fields with
  | nil => rfl
  | cons field rest ih =>
    cases rest with
    | nil => simp [flatten_fieldPieces]
    | cons next rest => simpa [flatten_fieldPieces] using ih

def recordPieces (d : Dialect) (fields : List (List UInt8)) : List (List UInt8) :=
  let pieces := d.joinedPieces fields
  if pieces.flatten.isEmpty then [d.quoteField []] else pieces

theorem flatten_recordPieces (d : Dialect) (fields : List (List UInt8)) :
    (d.recordPieces fields).flatten = d.encodeRecord fields := by
  unfold recordPieces encodeRecord
  simp only [flatten_joinedPieces]
  split
  · simp
  · exact flatten_joinedPieces d fields

end Dialect

def Format.pieces (format : Format) (fields : List String) : List (List UInt8) :=
  format.dialect.recordPieces (fields.map Text.encode) ++ [format.lineEnd.bytes]

/-- The pieces of a record make up the line that is written. -/
theorem Format.flatten_pieces (format : Format) (fields : List String) :
    (format.pieces fields).flatten = format.line fields := by
  simp [pieces, line, Dialect.flatten_recordPieces]

def blockSize : Nat := 8192

/-- How much of a text has been handed on, and how much waits for its block to be full. -/
structure Progress where
  sent : Nat := 0
  waiting : Nat := 0

def Progress.take (p : Progress) (piece : List UInt8) : Progress :=
  if p.waiting + piece.length ≤ blockSize then { p with waiting := p.waiting + piece.length }
  else ⟨p.sent + p.waiting, piece.length⟩

theorem Progress.total_take (p : Progress) (piece : List UInt8) :
    (p.take piece).sent + (p.take piece).waiting = p.sent + p.waiting + piece.length := by
  unfold take
  split <;> grind

namespace Written

def pieces (written : Written) : List (List UInt8) := written.lines.flatMap written.format.pieces

/-- The pieces of a table make up its text, so the blocks lose nothing and add nothing. -/
theorem flatten_pieces (written : Written) : written.pieces.flatten = written.text := by
  unfold pieces text
  induction written.lines with
  | nil => rfl
  | cons fields rest ih => simp [ih, Format.flatten_pieces]

def progress (written : Written) : Progress := written.pieces.foldl Progress.take {}

/-- What has been handed on and what waits is the whole text. -/
theorem sent_add_waiting (written : Written) :
    written.progress.sent + written.progress.waiting = written.text.length := by
  have total (pieces : List (List UInt8)) (p : Progress) :
      (pieces.foldl Progress.take p).sent + (pieces.foldl Progress.take p).waiting =
        p.sent + p.waiting + pieces.flatten.length := by
    induction pieces generalizing p with
    | nil => rfl
    | cons piece rest ih => simp [ih, Progress.total_take, Nat.add_assoc]
  simpa [progress, flatten_pieces] using total written.pieces {}

/-- Stores a table in a place that takes only `capacity` bytes. What does not fit is refused while
records are written if it is part of a full block, and at the end if it is part of the last one. -/
def storeWithin (written : Written) (capacity : Nat) : Except Error Unit :=
  let progress := written.progress
  if capacity < progress.sent then .error (.refused "failed to write whole buffer")
  else if capacity < progress.sent + progress.waiting then
    .error (.io "failed to write whole buffer")
  else .ok ()

/-- A table fits exactly if its text does. -/
theorem storeWithin_eq_ok_iff (written : Written) (capacity : Nat) :
    written.storeWithin capacity = .ok () ↔ written.text.length ≤ capacity := by
  rw [← sent_add_waiting]
  unfold storeWithin
  grind

end Written

end Curves.Csv

/-
  CsvQuery.Csv.Write — delimited text, byte by byte.

  A writer puts one record after another into a buffer in memory, which takes all bytes, and its text is
  what the bytes of the buffer encode.  Two things can go wrong with a writer: unless it is flexible it
  refuses a record that is not as wide as the first one, and a buffer that is no UTF-8 has no text.  Tables
  are written by a flexible one.
-/
import CsvQuery.Cell.Display
import CsvQuery.Text.Utf8

namespace CsvQuery.Csv

/-! ## §1. Bytes -/

/-- Whether a byte makes its field be quoted: a comma, a quote, a line feed or a carriage return. -/
def byteNeedsQuotes (b : UInt8) : Bool := b = 0x2C || b = 0x22 || b = 0x0A || b = 0x0D

/-- The bytes of a field as they are written. -/
def fieldBytes (field : List UInt8) : List UInt8 :=
  if field.any byteNeedsQuotes then
    0x22 :: ((field.flatMap fun b => if b = 0x22 then [0x22, 0x22] else [b]) ++ [0x22])
  else field

/-- The bytes of a record as they are written, with its end. -/
def recordBytes (fields : List (List UInt8)) : List UInt8 :=
  let line := [0x2C].intercalate (fields.map fieldBytes)
  (if line.isEmpty then [0x22, 0x22] else line) ++ [0x0A]

/-! ## §2. Writers -/

/-- The ways in which writing can fail. -/
inductive WriteFault where
  /-- A record is not as wide as the first one. -/
  | uneven (expected found : Nat)
  /-- The bytes are no UTF-8. -/
  | invalidUtf8
  deriving DecidableEq

/-- A buffer, the width of its first record and whether other widths are allowed. -/
structure Writer where
  flexible : Bool
  width : Option Nat
  bytes : List UInt8

namespace Writer

/-- A writer with an empty buffer. -/
def empty (flexible : Bool) : Writer := ⟨flexible, none, []⟩

/-- The writer after one more record. -/
def record (writer : Writer) (fields : List (List UInt8)) : Except WriteFault Writer :=
  let bytes := writer.bytes ++ recordBytes fields
  match writer.width with
  | none => .ok { writer with width := some fields.length, bytes }
  | some width =>
    if writer.flexible || width = fields.length then .ok { writer with bytes }
    else .error (.uneven width fields.length)

/-- The text of the buffer. -/
def text (writer : Writer) : Except WriteFault String :=
  match ofUtf8? writer.bytes with
  | some text => .ok text
  | none => .error .invalidUtf8

end Writer

/-- Writes columns and rows.  Without columns there is nothing to write. -/
def write (columns : List String) (rows : List Row) : Except WriteFault String :=
  if columns.isEmpty then .ok ""
  else do
    let records := rows.map fun row => row.map fun cell => utf8 cell.display
    let writer ← (columns.map utf8 :: records).foldlM Writer.record (Writer.empty true)
    writer.text

end CsvQuery.Csv

/-
  CsvQuery.Cell.Infer — the cell that a piece of text stands for.

  Decimal integers within 64 bits are integers; other decimal numerals are the nearest binary64
  number as long as that is finite; everything else, the spellings of infinity and not-a-number
  included, stays text.
-/
import CsvQuery.Cell.Basic
import CsvQuery.Number.Decimal

namespace CsvQuery

/-- The integer of 64 bits that the text denotes, if it does and the number is in range. -/
def int64OfText? (text : List Char) : Option Int64 := (integer? text).bind int64OfInt?

namespace Cell

/-- The cell that a text stands for. -/
def infer (raw : String) : Cell :=
  match int64OfText? raw.toList with
  | some i => int i
  | none =>
    match (Numeral.ofText? raw.toList).bind Numeral.nearest? with
    | some x => float x
    | none => text raw

/-- The cell of a field: absent if the field is empty, else the one that its text stands for. -/
def ofField (field : String) : Cell := if field.isEmpty then absent else infer field

end Cell

end CsvQuery

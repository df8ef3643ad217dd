/-
  CsvQuery.Csv.Decode — the columns and rows that a delimited text holds.

  A byte order mark at the start is dropped, and so are the blank lines above the header.  Each line
  after the header is one row: a blank line is a row of a single absent cell, and any other line has
  one cell for each of its fields, however many there are.  A text without a header is empty.
-/
import CsvQuery.Csv.Line
import CsvQuery.Cell.Infer

namespace CsvQuery.Csv

/-- The text without a byte order mark at its start. -/
def dropMark : List Char → List Char
  | '\uFEFF' :: rest => rest
  | text => text

/-- The row that stands on a line. -/
def Line.row : Line → Row
  | blank => [.absent]
  | record fields => fields.map fun field => .ofField (String.ofList field)

/-- The columns that a header line names. -/
def Line.columns : Line → List String
  | blank => []
  | record fields => fields.map String.ofList

/-- The columns and rows of a text. -/
def decode (text : String) : List String × List Row :=
  match (lines (dropMark text.toList)).dropWhile Line.isBlank with
  | [] => ([], [])
  | header :: rest => (header.columns, rest.map Line.row)

end CsvQuery.Csv

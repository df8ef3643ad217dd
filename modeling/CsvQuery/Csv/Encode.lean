/-
  CsvQuery.Csv.Encode — columns and rows as delimited text.

  Every line ends in a line feed.  A field is quoted exactly when it holds a comma, a quote or a line
  end, and a quote inside it is doubled.  A line that would be empty is written as a pair of quotes,
  so that it is not taken for a blank line.  Without columns there is no text at all.
-/
import CsvQuery.Cell.Display

namespace CsvQuery.Csv

/-- Whether a character makes its field be quoted. -/
def needsQuotes (c : Char) : Bool := c = ',' || c = '"' || c = '\n' || c = '\r'

/-- A text with each quote written twice. -/
def doubleQuotes (text : List Char) : List Char :=
  text.flatMap fun c => if c = '"' then ['"', '"'] else [c]

/-- A field as it is written. -/
def encodeField (field : List Char) : List Char :=
  if field.any needsQuotes then '"' :: (doubleQuotes field ++ ['"']) else field

/-- A line of fields as it is written, with its end. -/
def encodeLine (fields : List (List Char)) : List Char :=
  let line := [','].intercalate (fields.map encodeField)
  (if line.isEmpty then ['"', '"'] else line) ++ ['\n']

/-- Columns and rows as text. -/
def encode (columns : List String) (rows : List Row) : String :=
  if columns.isEmpty then ""
  else
    let header := columns.map String.toList
    let records := rows.map fun row => row.map fun cell => cell.display.toList
    String.ofList ((header :: records).flatMap encodeLine)

end CsvQuery.Csv

/-
  CsvQuery.Cell.Display — the text of a cell.

  An absent cell has no text.  A whole number in binary64 form below `10 ^ 16` ends in `.0`; every
  other finite one has the fewest digits that read back, the exponent always written out as zeros.
-/
import CsvQuery.Cell.Basic
import CsvQuery.Number.Shortest

namespace CsvQuery

/-- The text of a finite magnitude. -/
def Magnitude.display (x : Magnitude) : List Char :=
  match x.whole? with
  | some n => if n < Nat.pow 10 16 then Nat.toDigits 10 n ++ ['.', '0'] else x.shortest.positional
  | none => x.shortest.positional

/-- The text of a binary64 number. -/
def Binary64.display : Binary64 → List Char
  | .finite true x => '-' :: x.display
  | .finite false x => x.display
  | .infinite true => ['-', 'i', 'n', 'f']
  | .infinite false => ['i', 'n', 'f']
  | .nan => ['N', 'a', 'N']

/-- The text of a cell. -/
def Cell.display : Cell → String
  | .absent => ""
  | .int i => String.ofList (decimalText i.toInt)
  | .float x => String.ofList x.display
  | .text s => s

end CsvQuery

/-
  CsvQuery.Cell.Basic — the values of a table.

  A cell is absent, an integer of 64 bits, a binary64 number or a text.  A row is a list of cells;
  reading past its end gives an absent cell, so a short row behaves as one padded with absent cells.
-/
import CsvQuery.Number.Binary64

namespace CsvQuery

/-- An integer as one of 64 bits, if it is in range. -/
def int64OfInt? (n : Int) : Option Int64 :=
  if Int64.minValue.toInt ≤ n ∧ n ≤ Int64.maxValue.toInt then some (Int64.ofInt n) else none

/-- A value in a table. -/
inductive Cell where
  | absent
  | int (value : Int64)
  | float (value : Binary64)
  | text (value : String)
  deriving DecidableEq

namespace Cell

instance : Inhabited Cell := ⟨absent⟩

/-- Whether the cell is absent. -/
def isAbsent : Cell → Bool
  | absent => true
  | _ => false

/-- Whether the cell holds a number of either form. -/
def isNumeric : Cell → Bool
  | int _ => true
  | float _ => true
  | _ => false

/-- A count as an integer cell; a count past the greatest integer is cut to it. -/
def ofCount (n : Nat) : Cell := int (Int64.ofIntClamp n)

/-- The cell of a value that may be missing. -/
def ofOption {α : Type} (toCell : α → Cell) : Option α → Cell
  | none => absent
  | some value => toCell value

end Cell

/-- A row of a table: its cells from left to right. -/
abbrev Row := List Cell

/-- The cell at a position, absent past the end of the row. -/
def Row.cell (row : Row) (position : Nat) : Cell := row.getD position .absent

end CsvQuery

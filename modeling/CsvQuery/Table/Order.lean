/-
  CsvQuery.Table.Order — sorting rows by a column.

  Rows whose cell is a number come first, from the greatest value to the least; all other rows follow.
  Rows that the order does not tell apart keep their places.
-/
import CsvQuery.Table.Basic

namespace CsvQuery

namespace Cell

/-- How two cells compare when numbers fall and what is no number comes last. -/
def descending (a b : Cell) : Ordering :=
  match a.isNumeric, b.isNumeric with
  | true, true => compare b a
  | true, false => .lt
  | false, true => .gt
  | false, false => .eq

/-- Whether a cell may stand before another: numbers fall, and what is no number comes last. -/
def descendingLe (a b : Cell) : Bool :=
  match a.isNumeric, b.isNumeric with
  | true, true => Cell.le b a
  | true, false => true
  | false, true => false
  | false, false => true

end Cell

namespace Table

/-- The table with its rows sorted by a column; a name that the table lacks changes nothing. -/
def orderBy (table : Table) (column : String) : Table :=
  match table.position column with
  | none => table
  | some position =>
    { table with rows := table.rows.mergeSort fun a b =>
        Cell.descendingLe (a.cell position) (b.cell position) }

end Table

end CsvQuery

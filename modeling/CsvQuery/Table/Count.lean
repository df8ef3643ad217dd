/-
  CsvQuery.Table.Count — how many rows have each value of a column.

  Values are told apart by equality of cells and stand in the order in which they are first seen, in
  the form in which they are first seen.
-/
import CsvQuery.Table.Basic

namespace CsvQuery

/-- The counts with one more for a value, which is put last if it is new. -/
def tally (value : Cell) : List (Cell × Nat) → List (Cell × Nat)
  | [] => [(value, 1)]
  | (seen, n) :: rest => if seen == value then (seen, n + 1) :: rest else (seen, n) :: tally value rest

namespace Table

/-- The values of a column with their numbers of rows; none if the table lacks the column. -/
def counts (table : Table) (column : String) : List (Cell × Nat) :=
  match table.position column with
  | none => []
  | some position => table.rows.foldl (fun counts row => tally (row.cell position) counts) []

/-- The name of the column that holds the numbers. -/
def countColumn : String := "count"

/-- The table of the values of a column and their numbers of rows. -/
def countBy (table : Table) (column : String) : Table :=
  ⟨[column, countColumn], (table.counts column).map fun (value, n) => [value, .ofCount n]⟩

end Table

end CsvQuery

/-
  CsvQuery.Table.Join.Hash — finding pairs of rows by buckets.

  The right rows are put into buckets under the keys of their cells, each bucket in the order of the
  rows.  The left rows are then looked up in order, so the pairs come in the order of the left rows
  and, for one left row, in the order of the right ones.
-/
import CsvQuery.Cell.Key
import CsvQuery.Table.Join.Basic
import Std.Data.HashMap

namespace CsvQuery

/-- Rows gathered under the keys of their cells. -/
abbrev Buckets := Std.HashMap (List UInt8) (List Row)

/-- The rows of the bucket under a cell's key. -/
def Buckets.rows (buckets : Buckets) (cell : Cell) : List Row := buckets.getD cell.key []

/-- The buckets of rows by the cell at a position, each in the order of the rows. -/
def Buckets.ofRows (position : Nat) (rows : List Row) : Buckets :=
  rows.foldr (fun row buckets =>
    buckets.insert (row.cell position).key (row :: buckets.rows (row.cell position))) ∅

/-- The pairs of rows with equal cells, found by buckets of the right rows. -/
def hashPairs (leftPosition rightPosition : Nat) (left right : List Row) : List (Row × Row) :=
  let buckets := Buckets.ofRows rightPosition right
  left.flatMap fun l => (buckets.rows (l.cell leftPosition)).map fun r => (l, r)

end CsvQuery

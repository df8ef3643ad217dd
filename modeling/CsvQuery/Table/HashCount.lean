/-
  CsvQuery.Table.HashCount — counting values that are found by a hash.

  The entries stand in the order in which their values are first seen.  The entry of a value is looked up
  by a hash of the bytes that the cell feeds, and among entries of one hash by equality of cells.
-/
import CsvQuery.Cell.Hash
import CsvQuery.Table.Count

namespace CsvQuery

/-- The counts with one more for a value, whose entry is found by a hash; a new value is put last. -/
def tallyHashed (hash : List UInt8 → UInt64) (value : Cell) (counts : List (Cell × Nat)) :
    List (Cell × Nat) :=
  let isEntry (entry : Cell × Nat) : Bool :=
    hash entry.1.hashBytes == hash value.hashBytes && entry.1 == value
  match counts.findIdx? isEntry with
  | some place => counts.modify place fun (seen, n) => (seen, n + 1)
  | none => counts ++ [(value, 1)]

/-- The values of a column with their numbers of rows, found by a hash; none if the table lacks the
column. -/
def Table.hashedCounts (hash : List UInt8 → UInt64) (table : Table) (column : String) :
    List (Cell × Nat) :=
  match table.position column with
  | none => []
  | some position => table.rows.foldl (fun counts row => tallyHashed hash (row.cell position) counts) []

end CsvQuery

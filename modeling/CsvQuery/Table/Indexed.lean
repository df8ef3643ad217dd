/-
  CsvQuery.Table.Indexed — tables that keep their index.

  Beside its columns such a table holds an index of them, in which every look-up is made.  Only replacing
  the columns makes the index anew; everything else must leave the columns as they are.
-/
import CsvQuery.Table.Count
import CsvQuery.Table.Join
import CsvQuery.Table.Order
import CsvQuery.Table.Select

namespace CsvQuery

/-! ## §1. The index -/

/-- The position that each column name means. -/
abbrev ColumnIndex := Std.HashMap String Nat

/-- The index of some columns, in which a later column takes the place of an earlier one. -/
def ColumnIndex.ofColumns (columns : List String) : ColumnIndex :=
  columns.zipIdx.foldl (fun index column => index.insert column.1 column.2) ∅

/-- Columns, their index and rows. -/
structure IndexedTable where
  columns : List String
  index : ColumnIndex
  rows : List Row

/-- The pairs of rows that a strategy finds. -/
def JoinStrategy.pairs :
    JoinStrategy → (leftPosition rightPosition : Nat) → List Row → List Row → List (Row × Row)
  | hash => hashPairs
  | sortMerge => sortMergePairs

namespace IndexedTable

/-! ## §2. Commands -/

/-- The table without columns and rows. -/
def empty : IndexedTable := ⟨[], ∅, []⟩

/-- The position that a column name means. -/
def position (table : IndexedTable) (column : String) : Option Nat := table.index[column]?

/-- The table under other columns, with their index. -/
def withColumns (table : IndexedTable) (columns : List String) : IndexedTable :=
  { table with columns, index := .ofColumns columns }

/-- The table of some columns and rows. -/
def ofParts (columns : List String) (rows : List Row) : IndexedTable :=
  { empty.withColumns columns with rows }

/-- The table after a reply has been loaded into it: an empty reply changes nothing. -/
def load (table : IndexedTable) (reply : String) : IndexedTable :=
  if reply.isEmpty then table
  else { table.withColumns (Csv.decode reply).1 with rows := (Csv.decode reply).2 }

/-- The table with the named columns only, in the order named. -/
def select (table : IndexedTable) (columns : List String) : IndexedTable :=
  let positions := columns.map table.position
  let project (row : Row) : Row := positions.map fun position => (position.map row.cell).getD .absent
  { table with rows := table.rows.map project }.withColumns columns

/-- The table with its first `limit` rows only. -/
def take (table : IndexedTable) (limit : Int64) : IndexedTable :=
  { table with rows := table.rows.take limit.toInt.toNat }

/-- The table with its rows sorted by a column; a name that the table lacks changes nothing. -/
def orderBy (table : IndexedTable) (column : String) : IndexedTable :=
  match table.position column with
  | none => table
  | some position =>
    { table with rows := table.rows.mergeSort fun a b =>
        Cell.descendingLe (a.cell position) (b.cell position) }

/-- The values of a column with their numbers of rows; none if the table lacks the column. -/
def counts (table : IndexedTable) (column : String) : List (Cell × Nat) :=
  match table.position column with
  | none => []
  | some position => table.rows.foldl (fun counts row => tally (row.cell position) counts) []

/-- The table of the values of a column and their numbers of rows. -/
def countBy (table : IndexedTable) (column : String) : IndexedTable :=
  let counts := table.counts column
  { table.withColumns [column, Table.countColumn] with
    rows := counts.map fun (value, n) => [value, .ofCount n] }

/-- The join of two tables; the empty one if either lacks the column. -/
def join (strategy : JoinStrategy) (left right : IndexedTable) (column : String) : IndexedTable :=
  match left.position column, right.position column with
  | some l, some r =>
    ofParts (left.columns ++ right.columns.eraseIdx r)
      ((strategy.pairs l r left.rows right.rows).map (joinRow r))
  | _, _ => empty

end IndexedTable

/-- The table with the index of its columns. -/
def Table.indexed (table : Table) : IndexedTable := .ofParts table.columns table.rows

end CsvQuery

/-
  CsvQuery.Table.Select — choosing columns and leading rows.

  A selected name that the table lacks gives a column of absent cells, and a name may be selected more
  than once.  Taking keeps rows from the top; a negative limit keeps none.
-/
import CsvQuery.Table.Basic

namespace CsvQuery

namespace Table

/-- The table with the named columns only, in the order named. -/
def select (table : Table) (columns : List String) : Table :=
  let positions := columns.map table.position
  ⟨columns, table.rows.map fun row => positions.map fun position => (position.map row.cell).getD .absent⟩

/-- The table with its first `limit` rows only. -/
def take (table : Table) (limit : Int64) : Table :=
  { table with rows := table.rows.take limit.toInt.toNat }

end Table

end CsvQuery

/-
  CsvQuery.Proofs.Table.Indexed — the index of a table is always that of its columns.

  The index of some columns leads from each name to its last position, as the search through the columns
  does.  So a table with the index of its columns is changed by each command as the table without one is,
  and what comes out has the index of its columns again.

  Main results:
    • `ColumnIndex.getElem?_ofColumns` — a look-up in the index is the search through the columns
    • `indexed_load`, `indexed_select`, …, `indexed_join` — each change, with the index and without
-/
import CsvQuery.Proofs.Table.Columns
import CsvQuery.Table.Indexed

namespace CsvQuery

/-! ## §1. Look-ups -/

namespace ColumnIndex

/-- Columns that are entered from a position on go before what the index had. -/
theorem getElem?_foldl_insert (name : String) (columns : List String) (start : Nat)
    (index : ColumnIndex) :
    ((columns.zipIdx start).foldl (fun index column => index.insert column.1 column.2) index)[name]?
      = ((lastPosition name columns).map (start + ·)).or index[name]? := by
  induction columns generalizing start index with
  | nil => rfl
  | cons column rest ih =>
    rw [List.zipIdx_cons, List.foldl_cons, ih, Std.HashMap.getElem?_insert]
    -- a column of that name further on is entered later and takes its place
    cases hrest : lastPosition name rest with
    | some position => simp [lastPosition, hrest, Nat.add_comm, Nat.add_left_comm]
    | none =>
      by_cases hcolumn : column = name
      · simp [lastPosition, hrest, hcolumn]
      · simp [lastPosition, hrest, hcolumn]

/-- A look-up in the index is the search through the columns. -/
theorem getElem?_ofColumns (name : String) (columns : List String) :
    (ofColumns columns)[name]? = lastPosition name columns := by
  unfold ofColumns
  rw [getElem?_foldl_insert, Std.HashMap.getElem?_empty, Option.or_none]
  simp

end ColumnIndex

/-! ## §2. Changes -/

namespace Table

variable (table : Table)

/-- The index leads to the last position of a column. -/
theorem position_indexed (column : String) : table.indexed.position column = table.position column :=
  ColumnIndex.getElem?_ofColumns column table.columns

/-- Loading makes a new index if it makes a new table. -/
theorem indexed_load (reply : String) : (table.load reply).indexed = table.indexed.load reply := by
  unfold load IndexedTable.load
  split <;> rfl

/-- Columns are selected by the index as they are by searching. -/
theorem indexed_select (columns : List String) :
    (table.select columns).indexed = table.indexed.select columns := by
  have hpositions : columns.map table.indexed.position = columns.map table.position :=
    List.map_congr_left fun column _ => table.position_indexed column
  unfold IndexedTable.select
  rw [hpositions]
  rfl

theorem indexed_take (limit : Int64) : (table.take limit).indexed = table.indexed.take limit := rfl

/-- Sorting keeps the index, since it keeps the columns. -/
theorem indexed_orderBy (column : String) :
    (table.orderBy column).indexed = table.indexed.orderBy column := by
  unfold orderBy IndexedTable.orderBy
  rw [position_indexed]
  cases table.position column <;> rfl

theorem counts_indexed (column : String) : table.indexed.counts column = table.counts column := by
  unfold counts IndexedTable.counts
  rw [position_indexed]
  rfl

/-- A table of counts has the index of its two columns. -/
theorem indexed_countBy (column : String) :
    (table.countBy column).indexed = table.indexed.countBy column := by
  unfold IndexedTable.countBy
  rw [counts_indexed]
  rfl

/-- Joining finds both columns by the indexes, and the joined table has the index of the joined columns. -/
theorem indexed_join (strategy : JoinStrategy) (right : Table) (column : String) :
    (table.join strategy right column).indexed
      = table.indexed.join strategy right.indexed column := by
  have hjoin : table.join strategy right column = joinWith strategy.pairs table right column := by
    cases strategy <;> rfl
  rw [hjoin]
  unfold joinWith IndexedTable.join
  rw [position_indexed, position_indexed]
  cases table.position column with
  | none => rfl
  | some l => cases right.position column <;> rfl

end Table

end CsvQuery

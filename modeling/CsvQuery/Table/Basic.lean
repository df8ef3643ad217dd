/-
  CsvQuery.Table.Basic — tables.

  A table has column names from left to right and rows in order.  Names may repeat, and a name means
  its last column.  Rows may be shorter or longer than the header.
-/
import CsvQuery.Cell.Order
import CsvQuery.Csv.Decode
import CsvQuery.Csv.Encode

namespace CsvQuery

/-- Columns and rows. -/
structure Table where
  columns : List String
  rows : List Row
  deriving DecidableEq

/-- The last position at which a name stands. -/
def lastPosition (name : String) : List String → Option Nat
  | [] => none
  | column :: rest =>
    match lastPosition name rest with
    | some position => some (position + 1)
    | none => if column = name then some 0 else none

namespace Table

/-- The table without columns and rows. -/
def empty : Table := ⟨[], []⟩

/-- The position that a column name means. -/
def position (table : Table) (column : String) : Option Nat := lastPosition column table.columns

/-- Every column name once, with the position that it means. -/
def index (table : Table) : List (String × Nat) :=
  table.columns.eraseDups.filterMap fun column =>
    (table.position column).map fun position => (column, position)

/-- The table under other column names; its rows stay as they are. -/
def withColumns (table : Table) (columns : List String) : Table := { table with columns }

/-- Tables are equal when their names are the same and their cells are equal in pairs. -/
instance : BEq Table := ⟨fun a b => a.columns == b.columns && a.rows == b.rows⟩

/-- The table as delimited text. -/
def toCsv (table : Table) : String := Csv.encode table.columns table.rows

/-- The table that delimited text holds. -/
def ofCsv (text : String) : Table := ⟨(Csv.decode text).1, (Csv.decode text).2⟩

/-- The table after a reply has been loaded into it: an empty reply changes nothing. -/
def load (table : Table) (reply : String) : Table := if reply.isEmpty then table else ofCsv reply

end Table

end CsvQuery

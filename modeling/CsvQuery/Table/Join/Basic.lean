/-
  CsvQuery.Table.Join.Basic — what every join of two tables has in common.

  A join on a column needs the column on both sides and gives the empty table without it.  Its rows
  come from pairs of a left and a right row with equal cells there; the right-hand copy of the column,
  and of its cell, is left out.  How the pairs are found, and so their order, is the strategy's part.
-/
import CsvQuery.Table.Basic

namespace CsvQuery

/-! ## §1. Strategies -/

/-- A way to find the pairs of rows that match. -/
inductive JoinStrategy where
  /-- Put the right rows into buckets by key and look each left row up. -/
  | hash
  /-- Sort both sides by key and merge the runs of equal keys. -/
  | sortMerge
  deriving DecidableEq

namespace JoinStrategy

/-- The strategy where none is named. -/
def default : JoinStrategy := .sortMerge

/-- The name of a strategy. -/
def name : JoinStrategy → String
  | hash => "hash"
  | sortMerge => "sort_merge"

end JoinStrategy

/-! ## §2. The shape of a join -/

/-- A row of the join: the left row, then the right row without the cell of its key. -/
def joinRow (rightPosition : Nat) (pair : Row × Row) : Row :=
  pair.1 ++ pair.2.eraseIdx rightPosition

namespace Table

/-- The table that joins two tables on a column, given a way to find the pairs of rows. -/
def joinWith (pairs : (leftPosition rightPosition : Nat) → List Row → List Row → List (Row × Row))
    (left right : Table) (column : String) : Table :=
  match left.position column, right.position column with
  | some l, some r =>
    ⟨left.columns ++ right.columns.eraseIdx r, (pairs l r left.rows right.rows).map (joinRow r)⟩
  | _, _ => empty

end Table

end CsvQuery

/-
  CsvQuery.Table.Join — joining two tables on a column.

  Both strategies give the same columns and the same rows, each in its own order.
-/
import CsvQuery.Table.Join.Hash
import CsvQuery.Table.Join.SortMerge
import CsvQuery.Text.Case

namespace CsvQuery

namespace JoinStrategy

/-- The strategy that a text names in any ASCII letter case, or the message that refuses it. -/
def ofText (text : String) : Except String JoinStrategy :=
  match String.ofList (asciiLower text.toList) with
  | "hash" => .ok .hash
  | "sort_merge" | "sort-merge" | "merge" => .ok .sortMerge
  | other => .error ("unknown join strategy '" ++ other ++ "'")

end JoinStrategy

namespace Table

/-- The join of two tables by buckets. -/
def hashJoin (left right : Table) (column : String) : Table := joinWith hashPairs left right column

/-- The join of two tables by sorting and merging. -/
def sortMergeJoin (left right : Table) (column : String) : Table :=
  joinWith sortMergePairs left right column

/-- The join of two tables by the given strategy. -/
def join (strategy : JoinStrategy) (left right : Table) (column : String) : Table :=
  match strategy with
  | .hash => hashJoin left right column
  | .sortMerge => sortMergeJoin left right column

end Table

end CsvQuery

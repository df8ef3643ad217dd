/-
  CsvQuery.Table.Join.SortMerge — finding pairs of rows by merging sorted rows.

  Both sides are sorted by their cells, rows with equal cells keeping their order, and are then read
  from the front in rounds.  A round compares the first cells of the two sides.  The side whose cell
  is less passes over its run of equal cells; when the cells are equal, every row of the left run is
  paired with every row of the right one and both runs are passed over.  A run is never empty, since a
  cell is equal to itself, so every round leaves less to read.
-/
import CsvQuery.Table.Join.Basic

namespace CsvQuery

/-! ## §1. Runs -/

/-- The rows sorted by the cell at a position, from the least to the greatest. -/
def sortedBy (position : Nat) (rows : List Row) : List Row :=
  rows.mergeSort fun a b => Cell.le (a.cell position) (b.cell position)

/-- The rows at the front whose cells at a position are equal to the given one. -/
def firstRun (position : Nat) (cell : Cell) (rows : List Row) : List Row :=
  rows.takeWhile fun row => row.cell position == cell

/-- The rows after those at the front whose cells are equal to the given one. -/
def afterRun (position : Nat) (cell : Cell) (rows : List Row) : List Row :=
  rows.dropWhile fun row => row.cell position == cell

/-- The run of the first row's cell takes up at least that row. -/
theorem length_afterRun_lt (position : Nat) (row : Row) (rows : List Row) :
    (afterRun position (row.cell position) (row :: rows)).length < (row :: rows).length := by
  have h : afterRun position (row.cell position) (row :: rows)
      = afterRun position (row.cell position) rows :=
    List.dropWhile_cons_of_pos (Cell.beq_refl _)
  rw [h]
  exact Nat.lt_succ_of_le (List.dropWhile_sublist _).length_le

/-! ## §2. Rounds -/

/-- Every row of one list paired with every row of another. -/
def allPairs (left right : List Row) : List (Row × Row) :=
  left.flatMap fun l => right.map fun r => (l, r)

/-- The pairs that each round of the merge of two sorted sides gives. -/
def mergeRounds (leftPosition rightPosition : Nat) :
    (left right : List Row) → List (List (Row × Row))
  | [], _ => []
  | _ :: _, [] => []
  | l :: ls, r :: rs =>
    let leftCell := l.cell leftPosition
    let rightCell := r.cell rightPosition
    match compare leftCell rightCell with
    | .lt =>
      [] :: mergeRounds leftPosition rightPosition (afterRun leftPosition leftCell (l :: ls)) (r :: rs)
    | .gt =>
      [] :: mergeRounds leftPosition rightPosition (l :: ls)
        (afterRun rightPosition rightCell (r :: rs))
    | .eq =>
      allPairs (firstRun leftPosition leftCell (l :: ls))
          (firstRun rightPosition rightCell (r :: rs))
        :: mergeRounds leftPosition rightPosition (afterRun leftPosition leftCell (l :: ls))
          (afterRun rightPosition rightCell (r :: rs))
termination_by left right => left.length + right.length
decreasing_by
  · exact Nat.add_lt_add_right (length_afterRun_lt leftPosition l ls) _
  · exact Nat.add_lt_add_left (length_afterRun_lt rightPosition r rs) _
  · exact Nat.add_lt_add (length_afterRun_lt leftPosition l ls)
      (length_afterRun_lt rightPosition r rs)

/-- The pairs of rows with equal cells, found by merging the sorted sides. -/
def sortMergePairs (leftPosition rightPosition : Nat) (left right : List Row) : List (Row × Row) :=
  (mergeRounds leftPosition rightPosition (sortedBy leftPosition left)
    (sortedBy rightPosition right)).flatten

end CsvQuery

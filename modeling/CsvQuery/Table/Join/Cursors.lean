/-
  CsvQuery.Table.Join.Cursors — the merge of two sorted sides by cursors.

  Both sides stay whole, and a cursor goes down each of them.  A round compares the cells under the
  cursors: the cursor at the lesser cell moves behind its run, and where the cells are equal, the two runs
  are paired and both cursors move.  The rounds go on as long as both cursors stand at a row.  Rows are
  looked up by position, so a round fails where it looks outside a side.
-/
import CsvQuery.Table.Join.SortMerge

namespace CsvQuery

/-! ## §1. Positions -/

/-- The ways to look outside a list of rows. -/
inductive OutOfRange where
  /-- No row stands at the position. -/
  | row
  /-- The rows asked for end before they begin, or past the end of the list. -/
  | rows
  deriving DecidableEq

/-- The row at a position. -/
def rowAt (rows : List Row) (position : Nat) : Except OutOfRange Row :=
  match rows[position]? with
  | some row => .ok row
  | none => .error .row

/-- The rows from one position up to another, which is left out. -/
def rowsBetween (rows : List Row) (start stop : Nat) : Except OutOfRange (List Row) :=
  if start ≤ stop ∧ stop ≤ rows.length then .ok ((rows.take stop).drop start) else .error .rows

/-- The position behind the run of the row at the start: the rows from there on whose cells are equal to
its own. -/
def runEnd (position : Nat) (rows : List Row) (start : Nat) : Except OutOfRange Nat := do
  let first ← rowAt rows start
  let behind ← rowsBetween rows start rows.length
  return start + (firstRun position (first.cell position) behind).length

/-! ## §2. Rounds -/

/-- How far the merge has come. -/
structure Cursors where
  /-- The position in the left side. -/
  left : Nat
  /-- The position in the right side. -/
  right : Nat
  /-- The pairs found so far. -/
  pairs : List (Row × Row)
  deriving DecidableEq

namespace Cursors

/-- The cursors before the first round. -/
def start : Cursors := ⟨0, 0, []⟩

/-- Whether both cursors stand at a row. -/
def atRows (left right : List Row) (c : Cursors) : Bool :=
  decide (c.left < left.length) && decide (c.right < right.length)

/-- One round. -/
def round (leftPosition rightPosition : Nat) (left right : List Row) (c : Cursors) :
    Except OutOfRange Cursors := do
  let leftCell := (← rowAt left c.left).cell leftPosition
  let rightCell := (← rowAt right c.right).cell rightPosition
  match compare leftCell rightCell with
  | .lt => return { c with left := ← runEnd leftPosition left c.left }
  | .gt => return { c with right := ← runEnd rightPosition right c.right }
  | .eq =>
    let leftEnd ← runEnd leftPosition left c.left
    let rightEnd ← runEnd rightPosition right c.right
    let leftRun ← rowsBetween left c.left leftEnd
    let rightRun ← rowsBetween right c.right rightEnd
    return ⟨leftEnd, rightEnd, c.pairs ++ allPairs leftRun rightRun⟩

/-- The cursors after so many rounds, or where the rounds have ended before. -/
def after (leftPosition rightPosition : Nat) (left right : List Row) :
    (rounds : Nat) → Except OutOfRange Cursors
  | 0 => .ok start
  | rounds + 1 => do
    let c ← after leftPosition rightPosition left right rounds
    if c.atRows left right then c.round leftPosition rightPosition left right else return c

end Cursors

end CsvQuery

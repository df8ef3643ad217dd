/-
  CsvQuery.Query.Execute — a query at work on one table.

  All commands of a query change the same table.  Loading and joining fetch first and change the table
  afterwards, and the table outlives a failure as the source does.  At the end the table is written, which
  may fail as well.
-/
import CsvQuery.Csv.Write
import CsvQuery.Query.Parser
import CsvQuery.Source
import CsvQuery.Table.Indexed

namespace CsvQuery

variable {σ : Type}

/-! ## §1. Commands -/

/-- Work on the source, which leaves the table beside it alone. -/
def Work.beside {τ α : Type} (work : Work σ α) : Work (τ × σ) α :=
  ExceptT.mk fun (table, state) =>
    let (result, after) := work.outcome state
    (result, (table, after))

/-- Changes the table without any use of the source. -/
def changeTable (change : IndexedTable → IndexedTable) : Work (IndexedTable × σ) Unit :=
  modify fun (table, state) => (change table, state)

/-- Carries a command out on the table. -/
def Command.execute (source : Source σ) (strategy : JoinStrategy) :
    Command → Work (IndexedTable × σ) Unit
  | .load path => do
    let reply ← (source.fetch path).beside
    changeTable fun table => table.load reply
  | .select columns => changeTable fun table => table.select columns
  | .take limit => changeTable fun table => table.take limit
  | .orderBy column => changeTable fun table => table.orderBy column
  | .join path column => do
    let reply ← (source.fetch path).beside
    let right := IndexedTable.empty.load reply
    changeTable fun table => table.join strategy right column
  | .countBy column => changeTable fun table => table.countBy column

/-! ## §2. Queries -/

/-- Carries out one command after another. -/
def executeAll (source : Source σ) (strategy : JoinStrategy) (commands : List Command) :
    Work (IndexedTable × σ) Unit :=
  commands.forM (Command.execute source strategy)

/-- The tables after each command, up to the first command that fails. -/
def tablesReached (source : Source σ) (strategy : JoinStrategy) :
    List Command → IndexedTable × σ → List IndexedTable
  | [], _ => []
  | command :: commands, before =>
    match (command.execute source strategy).outcome before with
    | (.ok _, after) => after.1 :: tablesReached source strategy commands after
    | (.error _, after) => [after.1]

/-- The ways in which a line can fail to get an answer. -/
inductive QueryFault where
  /-- A command failed. -/
  | command (e : Error)
  /-- The table could not be written. -/
  | writing (fault : Csv.WriteFault)
  deriving DecidableEq

/-- The answer to a line, worked out on one table, and the source after it. -/
def executeLine (source : Source σ) (strategy : JoinStrategy) (line : String) (state : σ) :
    Except QueryFault String × σ :=
  match (executeAll source strategy (parse line)).outcome (.empty, state) with
  | (.ok _, (table, after)) => ((Csv.write table.columns table.rows).mapError .writing, after)
  | (.error e, (_, after)) => (.error (.command e), after)

end CsvQuery

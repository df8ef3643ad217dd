/-
  CsvQuery.Query.Run — running a query over a source.

  A query starts from the empty table.  Loading and joining fetch their data from the source, and the
  first failure of a fetch ends the query with that failure; nothing else in a query can fail.  The
  answer to a line is the table that its commands leave, as delimited text.
-/
import CsvQuery.Query.Parser
import CsvQuery.Source
import CsvQuery.Table.Count
import CsvQuery.Table.Join
import CsvQuery.Table.Order
import CsvQuery.Table.Select

namespace CsvQuery

variable {σ : Type}

/-- The name that a command fetches, if it fetches one. -/
def Command.path? : Command → Option String
  | .load path => some path
  | .join path _ => some path
  | _ => none

/-- The table that a command makes of a table. -/
def Command.apply (source : Source σ) (strategy : JoinStrategy) (table : Table) :
    Command → Work σ Table
  | .load path => return table.load (← source.fetch path)
  | .select columns => return table.select columns
  | .take limit => return table.take limit
  | .orderBy column => return table.orderBy column
  | .join path column => return table.join strategy (Table.empty.load (← source.fetch path)) column
  | .countBy column => return table.countBy column

/-- The table that a list of commands makes of the empty one. -/
def runCommands (source : Source σ) (strategy : JoinStrategy) (commands : List Command) :
    Work σ Table :=
  commands.foldlM (Command.apply source strategy) Table.empty

/-- The answer to a line. -/
def answer (source : Source σ) (strategy : JoinStrategy) (line : String) : Work σ String :=
  return (← runCommands source strategy (parse line)).toCsv

end CsvQuery

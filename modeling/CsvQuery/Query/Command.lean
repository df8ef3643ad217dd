/-
  CsvQuery.Query.Command — the commands of a query.

  A query is a list of commands, each applied to the table that the ones before it have made.  A
  command is written as its keyword and its arguments, divided by spaces.
-/
import CsvQuery.Number.Digits
import CsvQuery.Text.Case

namespace CsvQuery

/-! ## §1. Keywords -/

/-- The words that open a command. -/
inductive Keyword where
  | load
  | select
  | take
  | orderBy
  | join
  | countBy
  deriving DecidableEq

namespace Keyword

/-- The spelling of a keyword. -/
def name : Keyword → String
  | load => "from"
  | select => "select"
  | take => "take"
  | orderBy => "orderby"
  | join => "join"
  | countBy => "countby"

/-- All keywords. -/
def all : List Keyword := [.load, .select, .take, .orderBy, .join, .countBy]

/-- The keyword that a token spells in any letter case. -/
def ofToken? (token : String) : Option Keyword :=
  all.find? fun keyword => spells keyword.name.toList token.toList

end Keyword

/-! ## §2. Commands -/

/-- One step of a query. -/
inductive Command where
  /-- Load the table under a name. -/
  | load (path : String)
  /-- Keep the named columns. -/
  | select (columns : List String)
  /-- Keep the rows at the top. -/
  | take (limit : Int64)
  /-- Sort by a column, from the greatest number to the least. -/
  | orderBy (column : String)
  /-- Join with the table under a name. -/
  | join (path column : String)
  /-- Count the rows of each value of a column. -/
  | countBy (column : String)
  deriving DecidableEq

namespace Command

/-- The keyword of a command. -/
def keyword : Command → Keyword
  | load _ => .load
  | select _ => .select
  | take _ => .take
  | orderBy _ => .orderBy
  | join _ _ => .join
  | countBy _ => .countBy

/-- The texts of the arguments, where the columns of a selection count one by one. -/
def arguments : Command → List String
  | load path => [path]
  | select columns => columns
  | take limit => [String.ofList (decimalText limit.toInt)]
  | orderBy column => [column]
  | join path column => [path, column]
  | countBy column => [column]

/-- What stands between the arguments of a command. -/
def separator : Command → String
  | select _ => ","
  | _ => " "

/-- The command as it is written. -/
def display (command : Command) : String :=
  command.keyword.name ++ " " ++ command.separator.intercalate command.arguments

end Command

end CsvQuery

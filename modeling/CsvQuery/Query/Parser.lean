/-
  CsvQuery.Query.Parser — reading a query.

  A line is cut at white space into tokens, and each command takes its keyword and its arguments from
  the front, the arguments as they stand even where they spell a keyword.  Reading never fails: one
  unknown keyword or missing argument anywhere makes the whole line mean no commands at all.  What was
  read by then is used up, the refused token included.
-/
import CsvQuery.Query.Command
import CsvQuery.Text.Blank

namespace CsvQuery

/-! ## §1. Arguments -/

/-- The integer of 64 bits nearest to `10 * value + digit`, or to `10 * value - digit`. -/
def appendDigit (negative : Bool) (value : Int64) (digit : Char) : Int64 :=
  let scaled := Int64.ofIntClamp (value.toInt * 10)
  Int64.ofIntClamp (scaled.toInt + signed negative (digit.toNat - '0'.toNat))

/-- The integer at the start of a token, cut to 64 bits; zero if there is none. -/
def leadingInteger (token : String) : Int64 :=
  let (negative, rest) := splitSign token.toList
  (rest.takeWhile Char.isDigit).foldl (appendDigit negative) 0

/-- The column names of a token, divided by commas; the empty ones at its end do not count. -/
def columnNames (token : String) : List String :=
  let names := (token.toList.splitOn ',').map String.ofList
  (names.reverse.dropWhile String.isEmpty).reverse

/-! ## §2. Commands -/

/-- The command that opens a list of tokens, if one does, and the tokens that are left after it. -/
def Command.ofTokens? : List String → Option Command × List String
  | [] => (none, [])
  | token :: rest =>
    match Keyword.ofToken? token with
    | none => (none, rest)
    | some keyword =>
      match keyword, rest with
      | _, [] => (none, [])
      | .load, path :: rest => (some (.load path), rest)
      | .select, columns :: rest => (some (.select (columnNames columns)), rest)
      | .take, limit :: rest => (some (.take (leadingInteger limit)), rest)
      | .orderBy, column :: rest => (some (.orderBy column), rest)
      | .countBy, column :: rest => (some (.countBy column), rest)
      | .join, [_] => (none, [])
      | .join, path :: column :: rest => (some (.join path column), rest)

/-- A command takes at least one token. -/
theorem Command.length_ofTokens?_lt (token : String) (tokens : List String) :
    (Command.ofTokens? (token :: tokens)).2.length < (token :: tokens).length := by
  simp only [Command.ofTokens?]
  split
  case h_1 => simp
  case h_2 keyword _ =>
    rcases tokens with _ | ⟨first, _ | ⟨second, rest⟩⟩ <;> cases keyword <;>
      simp only [List.length_cons, List.length_nil] <;> omega

/-- The commands of a list of tokens, or none if it breaks off, and the tokens that are left. -/
def commandsOfTokens (tokens : List String) : List Command × List String :=
  read [] tokens
where
  /-- Goes on after the given commands, the latest one first. -/
  read (before : List Command) : List String → List Command × List String
    | [] => (before.reverse, [])
    | token :: rest =>
      match _h : Command.ofTokens? (token :: rest) with
      | (none, left) => ([], left)
      | (some command, left) => read (command :: before) left
  termination_by tokens => tokens.length
  decreasing_by
    have := Command.length_ofTokens?_lt token rest
    simp_all

/-- The tokens of a line. -/
def tokens (line : String) : List String := (words line.toList).map String.ofList

/-- The commands of a line. -/
def parse (line : String) : List Command := (commandsOfTokens (tokens line)).1

end CsvQuery

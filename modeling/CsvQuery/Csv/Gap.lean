/-
  CsvQuery.Csv.Gap — counting the blank lines between records.

  A reader of records steps over blank lines without telling.  How many there were is found in the text
  that it has read since the record before: every blank line has left one line end at the start of that
  text.  The reader ends a record at a carriage return before it has seen whether a line feed follows,
  so a line feed may stand there first that belongs to the record before.  Blank lines above the header
  are not counted, and those behind the last record are.
-/
import CsvQuery.Csv.Decode

namespace CsvQuery.Csv

/-! ## §1. Line ends -/

/-- Whether a character ends a line. -/
def isTerminator (c : Char) : Bool := c = '\r' || c = '\n'

/-- The number of line ends at the start of a text, where a pair counts once. -/
def leadingTerminators : List Char → Nat
  | [] => 0
  | '\r' :: '\n' :: rest => leadingTerminators rest + 1
  | c :: rest => if isTerminator c then leadingTerminators rest + 1 else 0

/-- The text that was read after a record with the given last character, without a line feed that makes a
pair with it. -/
def afterPair : (previous : Option Char) → (read : List Char) → List Char
  | some '\r', '\n' :: rest => rest
  | _, read => read

/-- The number of blank lines in the text that was read after a record with the given last character.  A
record that was not ended yet takes the first line end for itself. -/
def blankLines (previous : Option Char) (read : List Char) : Nat :=
  let terminators := leadingTerminators (afterPair previous read)
  match previous with
  | some c => if isTerminator c then terminators else terminators - 1
  | none => terminators

/-! ## §2. Records -/

/-- A record and all the text that was read for it. -/
structure Span where
  text : List Char
  fields : List (List Char)

/-- The records of a text, and the text behind the last one, where the scanner has begun the first line
and has read some text since the last record, last character first. -/
def Scanner.spans (s : Scanner) (read : List Char) : List Char → List Span × List Char
  | [] =>
    match s.last? with
    | some (.record fields) => ([⟨read.reverse, fields⟩], [])
    | _ => ([], read.reverse)
  | c :: rest =>
    match s.step c with
    | (some (.record fields), next) =>
      let (spans, behind) := next.spans [] rest
      (⟨(c :: read).reverse, fields⟩ :: spans, behind)
    | (_, next) => next.spans (c :: read) rest

/-- The rows of records and of the blank lines before, between and behind them. -/
def rowsOfSpans (previous : Option Char) (behind : List Char) : List Span → List Row
  | [] => List.replicate (blankLines previous behind) [.absent]
  | span :: spans =>
    List.replicate (blankLines previous span.text) [.absent]
      ++ (Line.record span.fields).row :: rowsOfSpans span.text.getLast? behind spans

/-- The columns and rows of a text, by its records and what was read between them. -/
def decodeByGaps (text : String) : List String × List Row :=
  match (Scanner.atLine false).spans [] (dropMark text.toList) with
  | ([], _) => ([], [])
  | (header :: spans, behind) =>
    ((Line.record header.fields).columns, rowsOfSpans header.text.getLast? behind spans)

end CsvQuery.Csv

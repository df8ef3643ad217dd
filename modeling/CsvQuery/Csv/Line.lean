/-
  CsvQuery.Csv.Line — cutting delimited text into lines of fields.

  Fields are divided by commas and lines are ended by a line feed, a carriage return or the pair of
  them.  A quote opens a quoted part only at the start of a field; inside it commas and line ends are
  text, a doubled quote is one quote, and whatever follows the closing quote up to the next comma or
  line end is appended as it stands.  A quoted part that is never closed runs to the end of the text.

  The text is read one character at a time.  What has been read of the current line is a `Scanner`;
  a line comes out when it is ended.  The line feed of a pair is met after the carriage return has
  already ended the line, so the scanner remembers that one and lets the line feed pass.
-/
namespace CsvQuery.Csv

/-! ## §1. Lines -/

/-- A line of delimited text. -/
inductive Line where
  /-- Nothing stands on the line. -/
  | blank
  /-- The fields of the line, from left to right. -/
  | record (fields : List (List Char))
  deriving DecidableEq

namespace Line

/-- Whether nothing stands on the line. -/
def isBlank : Line → Bool
  | blank => true
  | record _ => false

end Line

/-! ## §2. The scanner -/

/-- Where in a line the scanner stands. -/
inductive Mode where
  /-- Before the first character of a line; `returned` if a carriage return ended the last one. -/
  | lineStart (returned : Bool)
  /-- Just after a comma. -/
  | fieldStart
  /-- In text outside quotes. -/
  | plain
  /-- In text between quotes. -/
  | quoted
  /-- Just after a quote that closes the quoted part, unless another one follows. -/
  | closing
  deriving DecidableEq

/-- What has been read of the current line. -/
structure Scanner where
  mode : Mode
  /-- The current field, last character first. -/
  field : List Char
  /-- The fields before it, last one first. -/
  fields : List (List Char)

namespace Scanner

/-- The scanner before a line. -/
def atLine (returned : Bool) : Scanner := ⟨.lineStart returned, [], []⟩

/-- The line as it stands when it ends where the scanner is. -/
def line (s : Scanner) : Line :=
  match s.mode with
  | .lineStart _ => .blank
  | _ => .record (s.field.reverse :: s.fields).reverse

/-- The scanner in another mode. -/
def become (s : Scanner) (mode : Mode) : Scanner := { s with mode }

/-- The scanner in another mode with one more character in its field. -/
def keep (s : Scanner) (c : Char) (mode : Mode) : Scanner := { s with mode, field := c :: s.field }

/-- Reads a character outside quotes that does not open any. -/
def stepUnquoted (s : Scanner) (c : Char) : Option Line × Scanner :=
  if c = ',' then (none, ⟨.fieldStart, [], s.field.reverse :: s.fields⟩)
  else if c = '\n' then (some s.line, atLine false)
  else if c = '\r' then (some s.line, atLine true)
  else (none, s.keep c .plain)

/-- Reads one character, which may end the line. -/
def step (s : Scanner) (c : Char) : Option Line × Scanner :=
  match s.mode with
  | .quoted => if c = '"' then (none, s.become .closing) else (none, s.keep c .quoted)
  | .closing => if c = '"' then (none, s.keep c .quoted) else s.stepUnquoted c
  | .plain => s.stepUnquoted c
  | .fieldStart => if c = '"' then (none, s.become .quoted) else s.stepUnquoted c
  | .lineStart returned =>
    if c = '"' then (none, s.become .quoted)
    else if returned ∧ c = '\n' then (none, atLine false)
    else s.stepUnquoted c

/-- The line that the end of the text ends, if any has begun. -/
def last? (s : Scanner) : Option Line :=
  match s.mode with
  | .lineStart _ => none
  | _ => some s.line

/-- The lines of a text whose first line the scanner has begun. -/
def lines (s : Scanner) : List Char → List Line
  | [] => s.last?.toList
  | c :: rest =>
    match s.step c with
    | (none, next) => next.lines rest
    | (some line, next) => line :: next.lines rest

end Scanner

/-- The lines of a text. -/
def lines (text : List Char) : List Line := (Scanner.atLine false).lines text

end CsvQuery.Csv

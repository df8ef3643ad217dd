/-
  CsvQuery.Error — the ways in which work can fail.

  Trouble with a query is never an error: it degrades to an empty or an unchanged table.  What is left
  are failures of sources, of connections and of settings.
-/
import CsvQuery.Number.Digits

namespace CsvQuery

/-- The ways in which the system can refuse a file or a connection. -/
inductive IoFault where
  | notFound
  | isDirectory
  | invalidData
  | unexpectedEnd
  | connectionRefused
  | networkUnreachable
  deriving DecidableEq

/-- The ways in which a JSON document can be faulty. -/
inductive JsonFault where
  /-- The text breaks the grammar. -/
  | malformed
  /-- The text is well-formed so far, but a value is not of the kind that is wanted. -/
  | mismatched
  /-- The text ends too early. -/
  | truncated
  deriving DecidableEq

/-- The causes of failure. -/
inductive Error where
  /-- A record of delimited text is malformed. -/
  | malformedCsv (line : Nat) (reason : String)
  /-- The system refused a file or a connection. -/
  | io (fault : IoFault) (reason : String)
  /-- A frame has more bytes than any frame may have. -/
  | frameTooLarge (size : Nat)
  /-- The payload of a frame is no UTF-8. -/
  | invalidUtf8
  /-- The peer ended the connection before it answered. -/
  | connectionClosed
  /-- A setting has a value that it may not have. -/
  | config (reason : String)
  /-- The settings are not the JSON document that is wanted. -/
  | configParse (fault : JsonFault)
  deriving DecidableEq

/-- What the system says of a fault. -/
def IoFault.message : IoFault → String
  | notFound => "entity not found"
  | isDirectory => "is a directory"
  | invalidData => "stream did not contain valid UTF-8"
  | unexpectedEnd => "failed to fill whole buffer"
  | connectionRefused => "connection refused"
  | networkUnreachable => "network is unreachable"

/-- What is said of a faulty document. -/
def JsonFault.message : JsonFault → String
  | malformed => "the text is not well-formed"
  | mismatched => "a value is not of the kind that is wanted"
  | truncated => "the text ends too early"

namespace Error

/-- The failure that a fault of the system causes. -/
def ofFault (fault : IoFault) : Error := .io fault fault.message

/-- The text of a natural number. -/
private def natText (n : Nat) : String := String.ofList (Nat.toDigits 10 n)

/-- What is said of a failure. -/
def message : Error → String
  | malformedCsv line reason => "CSV error: malformed record on line " ++ natText line ++ ": " ++ reason
  | io _ reason => "I/O error: " ++ reason
  | frameTooLarge size =>
    "Transport error: frame of " ++ natText size ++ " bytes exceeds the maximum frame size"
  | invalidUtf8 => "Transport error: payload is not valid UTF-8"
  | connectionClosed => "Transport error: connection closed by peer"
  | config reason => "Config error: " ++ reason
  | configParse fault => "Config error: " ++ fault.message

end Error

end CsvQuery

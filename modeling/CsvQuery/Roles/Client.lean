/-
  CsvQuery.Roles.Client — the client of the query server.

  The client sends lines one by one on one connection and prints each reply with exactly one line feed
  at its end.  It is given one line as the value of an option, or an input of lines; of those, it
  applies the backspaces and does not send the blank ones.  When the connection cannot be opened or is
  lost the client ends with exit code 1, after what it has printed by then; when its one line looks
  like an option it ends with exit code 2 and does not connect.
-/
import CsvQuery.Roles.Argument
import CsvQuery.Text.Blank
import CsvQuery.Text.Mark
import CsvQuery.Wire.Responder

namespace CsvQuery

/-- What a client leaves behind. -/
structure ClientRun where
  stdout : String
  exit : Nat
  deriving DecidableEq

/-- What a client is given to send. -/
inductive ClientTask where
  /-- One line, as the value of an option. -/
  | execute (line : String)
  /-- The lines of an input. -/
  | input (text : String)

namespace Client

/-- A reply as it is printed. -/
def printed (reply : String) : String :=
  if reply.toList.getLast? = some '\n' then reply else reply.push '\n'

/-- A line without the carriage return that belongs to its end. -/
def dropReturn (line : List Char) : List Char :=
  if line.getLast? = some '\r' then line.dropLast else line

/-- The lines of an input: each but the last is ended, and an empty last one is none. -/
def inputLines (input : String) : List String :=
  let pieces := input.toList.splitOn '\n'
  let last := pieces.getLast?.getD []
  (pieces.dropLast.map dropReturn ++ (if last.isEmpty then [] else [last])).map String.ofList

/-- The lines of an input that are sent. -/
def sentLines (input : String) : List String :=
  ((inputLines input).map fun line => String.ofList (applyBackspaces line.toList)).filter fun line =>
    !line.toList.all isBlank

variable {σ : Type}

/-- Sends lines on a connection and prints the replies. -/
def sendLines (handler : Handler σ) (passing : Passing) (connection : Connection)
    (responder : Responder σ) (stdout : String) : List String → ClientRun × Responder σ
  | [] => (⟨stdout, 0⟩, responder)
  | line :: lines =>
    match connection.request handler passing line responder with
    | (.ok (reply, connection), responder) =>
      sendLines handler passing connection responder (stdout ++ printed reply) lines
    | (.error _, responder) => (⟨stdout, 1⟩, responder)

/-- Opens a connection and sends lines on it; a role that has stopped cannot be reached any more. -/
def run (handler : Handler σ) (passing : Passing) (lines : List String) (responder : Responder σ) :
    ClientRun × Responder σ :=
  match Connection.opened passing with
  | .error _ => (⟨"", 1⟩, responder)
  | .ok connection =>
    if responder.running then sendLines handler passing connection responder "" lines
    else (⟨"", 1⟩, responder)

/-- Starts a client, which refuses an option in the place of its one line. -/
def start (handler : Handler σ) (passing : Passing) (responder : Responder σ) :
    ClientTask → ClientRun × Responder σ
  | .execute line =>
    if isOption line then (⟨"", 2⟩, responder) else run handler passing [line] responder
  | .input text => run handler passing (sentLines text) responder

/-- Starts one client after the other. -/
def startAll (handler : Handler σ) (passing : Passing) (responder : Responder σ) :
    List ClientTask → List ClientRun
  | [] => []
  | task :: tasks =>
    let (result, responder) := start handler passing responder task
    result :: startAll handler passing responder tasks

end Client

end CsvQuery

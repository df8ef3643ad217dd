/-
  CsvQuery.Roles.Session — clients of one role, one act after the other.

  Clients open connections, ask on them and close them; a stream of any bytes can be sent on a
  connection of its own.  A client whose connection is lost learns so when it asks.
-/
import CsvQuery.Wire.Responder

namespace CsvQuery

/-- What is done to a role. -/
inductive Act where
  | connect (client : Nat)
  | close (client : Nat)
  | ask (client : Nat) (line : String)
  /-- Send bytes on a new connection, end the stream and take all replies. -/
  | stream (bytes : List UInt8)

/-- What comes of an act. -/
inductive ActResult where
  | nothing
  | answered (reply : Except Error String)
  | replies (texts : List String)

/-- A role and the connections of its clients. -/
structure Session (σ : Type) where
  responder : Responder σ
  connections : List (Nat × Connection)

namespace Session

variable {σ : Type}

/-- A role that nobody is connected to. -/
def start (responder : Responder σ) : Session σ := ⟨responder, []⟩

/-- The session without the connection of a client. -/
def dropped (session : Session σ) (client : Nat) : Session σ :=
  { session with connections := session.connections.filter fun entry => entry.1 != client }

/-- The session with a connection for a client. -/
def connected (session : Session σ) (client : Nat) (connection : Connection) : Session σ :=
  { session with connections := (client, connection) :: (session.dropped client).connections }

/-- The reply to a client's line; a lost connection stays lost. -/
def ask (handler : Handler σ) (passing : Passing) (client : Nat) (line : String)
    (session : Session σ) : Except Error String × Session σ :=
  match session.connections.lookup client with
  | none => (.error .connectionClosed, session)
  | some connection =>
    match connection.request handler passing line session.responder with
    | (.ok (reply, connection), responder) =>
      (.ok reply, { session with responder }.connected client connection)
    | (.error (.frameTooLarge size), responder) =>
      (.error (.frameTooLarge size), { session with responder })
    | (.error cause, responder) => (.error cause, { session with responder }.dropped client)

/-- Does one act; only opening a connection can be refused. -/
def perform (handler : Handler σ) (passing : Passing) (session : Session σ) :
    Act → Except Error (ActResult × Session σ)
  | .connect client =>
    (Connection.opened passing).map fun connection =>
      (.nothing, session.connected client connection)
  | .close client => .ok (.nothing, session.dropped client)
  | .ask client line =>
    let (reply, session) := session.ask handler passing client line
    .ok (.answered reply, session)
  | .stream bytes =>
    (Connection.opened passing).map fun _ =>
      let (replies, responder) := session.responder.converse handler bytes
      (.replies replies, { session with responder })

/-- Does acts one after the other, until opening a connection is refused. -/
def performAll (handler : Handler σ) (passing : Passing) (session : Session σ) :
    List Act → Except Error (List ActResult)
  | [] => .ok []
  | act :: acts =>
    match session.perform handler passing act with
    | .error cause => .error cause
    | .ok (result, session) => (session.performAll handler passing acts).map (result :: ·)

end Session

end CsvQuery

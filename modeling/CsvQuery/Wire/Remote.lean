/-
  CsvQuery.Wire.Remote — a source on the other side of a connection.

  The connection is opened when it is first needed and kept between fetches.  Any failure drops it, so
  that the next fetch opens a new one and no answer is ever left over for a later request.

  On the other side is a server that may have other connections.  What happens there before a request
  is sent and while its answer is waited for, and what the system does to the connection, is left open:
  a fetch is given a turn that says it.
-/
import CsvQuery.Wire.Serve

namespace CsvQuery

variable {σ : Type}

/-! ## §1. In the meantime -/

/-- Whether an event is an act of the peer of a connection. -/
def ServerEvent.isBy (k : Nat) : ServerEvent → Bool
  | .arrive channel _ => channel == k
  | .finish channel => channel == k
  | _ => false

namespace Server

/-- The server after those of a list of events that can happen, one after the other. -/
def advance (handler : Handler σ) (server : Server σ) (events : List ServerEvent) : Server σ :=
  events.foldl (fun server event => (server.step handler event).getD server) server

/-- The server after events that are not acts of the peer of a connection, which waits. -/
def attend (handler : Handler σ) (k : Nat) (server : Server σ) (events : List ServerEvent) :
    Server σ :=
  server.advance handler (events.filter fun event => !event.isBy k)

/-- The replies written on a connection. -/
def written (server : Server σ) (k : Nat) : List String :=
  (server.channels[k]?.getD .fresh).written

end Server

/-- What happens around one request: what the system does to the connection, and what goes on at the
server. -/
structure Turn extends Passing where
  /-- What happens before the request is sent. -/
  before : List ServerEvent
  /-- The number of bytes of the request after which sending breaks, if it does, and why. -/
  breakage : Option (Nat × IoFault)
  /-- What happens from then on until the answer is looked for. -/
  meanwhile : List ServerEvent
  /-- Why the answer cannot be received, if it cannot. -/
  fault : Option IoFault

/-! ## §2. Connections -/

/-- A connection to a server, seen by the one who asks. -/
structure Link where
  /-- Its number with the server. -/
  channel : Nat
  /-- The number of bytes of the server's replies that have arrived. -/
  arrived : Nat
  connection : Connection

namespace Link

/-- Sends a message, unless it is too large.  Where sending breaks, some bytes get through. -/
def send (handler : Handler σ) (turn : Turn) (message : String) (link : Link) (server : Server σ) :
    Except Error Unit × Server σ :=
  match Frame.encode message with
  | .error cause => (.error cause, server)
  | .ok frame =>
    match turn.breakage with
    | none => (.ok (), server.advance handler [.arrive link.channel frame.data.toList])
    | some (count, fault) =>
      (.error (.ofFault fault),
        server.advance handler [.arrive link.channel (frame.data.toList.take count)])

/-- The bytes that arrive of what the server has written since they were last looked for. -/
def arriving (turn : Turn) (link : Link) (server : Server σ) : List UInt8 :=
  turn.toPassing.arriving
    ((Responder.framesOf (server.written link.channel)).drop link.arrived)

/-- The next message, once all that will arrive has arrived. -/
def receive (turn : Turn) (link : Link) (server : Server σ) : Except Error (String × Link) :=
  match turn.fault with
  | some fault => .error (.ofFault fault)
  | none =>
    let arriving := link.arriving turn server
    match Connection.receive ⟨link.connection.unread ++ arriving⟩ with
    | .ok (message, connection) =>
      .ok (message, ⟨link.channel, link.arrived + arriving.length, connection⟩)
    | .error cause => .error cause

/-- Sends a message and waits for the answer. -/
def request (handler : Handler σ) (turn : Turn) (message : String) (link : Link)
    (server : Server σ) : Except Error (String × Link) × Server σ :=
  match link.send handler turn message server with
  | (.error cause, server) => (.error cause, server)
  | (.ok (), server) =>
    let server := server.attend handler link.channel turn.meanwhile
    (link.receive turn server, server)

end Link

/-! ## §3. Fetching -/

/-- A server to fetch from, and the connection to it, if one is kept. -/
structure Remote (σ : Type) where
  server : Server σ
  link : Option Link

namespace Remote

/-- A responder that no connection has been opened to. -/
def start (responder : Responder σ) : Remote σ where
  server :=
    { Server.start responder.state with
      failure := if responder.running then none else some .connectionClosed }
  link := none

/-- The number of the connection that the next request is sent on. -/
def channel (remote : Remote σ) : Nat :=
  match remote.link with
  | some link => link.channel
  | none => remote.server.channels.length

/-- The remote after events at the server while nothing is fetched. -/
def rest (handler : Handler σ) (events : List ServerEvent) (remote : Remote σ) : Remote σ where
  server :=
    match remote.link with
    | some link => remote.server.attend handler link.channel events
    | none => remote.server.advance handler events
  link := remote.link

/-- The connection that is kept, or a new one. -/
def connect (handler : Handler σ) (turn : Turn) (remote : Remote σ) :
    Except Error Link × Server σ :=
  match remote.link with
  | some link => (.ok link, remote.server)
  | none =>
    match Connection.opened turn.toPassing with
    | .error cause => (.error cause, remote.server)
    | .ok connection =>
      (.ok ⟨remote.server.channels.length, 0, connection⟩, remote.server.advance handler [.accept])

/-- The reply to one request, and what has become of the connection. -/
def fetch (handler : Handler σ) (turn : Turn) (name : String) (remote : Remote σ) :
    Except Error String × Remote σ :=
  match (remote.rest handler turn.before).connect handler turn with
  | (.error cause, server) => (.error cause, ⟨server, none⟩)
  | (.ok link, server) =>
    match link.request handler turn name server with
    | (.ok (reply, link), server) => (.ok reply, ⟨server, some link⟩)
    | (.error cause, server) => (.error cause, ⟨server.advance handler [.finish link.channel], none⟩)

/-! ## §4. Schedules -/

/-- The turn in which the server does at once all that the request needs: it reads it, handles all
that is in the queue and writes the reply. -/
def promptly (passing : Passing) (remote : Remote σ) : Turn where
  toPassing := passing
  before := []
  breakage := none
  meanwhile :=
    [.read remote.channel, .enqueue remote.channel]
      ++ (List.replicate (remote.server.queue.length + 1) .handle ++ [.write remote.channel])
  fault := none

/-- The outcomes of a list of fetches with a prompt server, each with what the system does to it. -/
def fetchAll (handler : Handler σ) (remote : Remote σ) :
    List (Passing × String) → List (Except Error String)
  | [] => []
  | (passing, name) :: rest =>
    let (outcome, remote) := remote.fetch handler (remote.promptly passing) name
    outcome :: remote.fetchAll handler rest

/-- The remote server as a source, with a turn for each request by a schedule. -/
def scheduled (handler : Handler σ) (schedule : String → Remote σ → Turn) : Source (Remote σ) where
  fetch name := ExceptT.mk fun remote => remote.fetch handler (schedule name remote) name

/-- The remote server as a source, where it is prompt and the system treats all fetches alike. -/
def source (handler : Handler σ) (passing : Passing) : Source (Remote σ) :=
  scheduled handler fun _ remote => remote.promptly passing

end Remote

namespace Handler

/-- The handler that fails once the number of requests it is to answer, if there is one, is used up. -/
def limited (handler : Handler σ) : Handler (Option Nat × σ) := fun request =>
  ExceptT.mk fun (left, state) =>
    if left = some 0 then (.error .connectionClosed, (left, state))
    else
      let (outcome, state) := (handler request).outcome state
      (outcome, (left.map (· - 1), state))

end Handler

end CsvQuery

/-
  CsvQuery.Wire.Serve — answering any number of connections at once.

  Every connection has a reader of its own that takes the next frame from the stream, puts the request
  into one queue that all connections share, and waits for its reply before it reads on.  The handler
  takes the requests from the queue one at a time.  What happens when is left open: a server moves by
  events, and any order of events that can happen is a run.

  A bad or cut frame, the end of a stream and a reply over the frame limit end one connection.  A
  failure of the handler stops the server: every request that waits goes without an answer, and none
  that is read later is let into the queue.
-/
import CsvQuery.Wire.Responder

namespace CsvQuery

/-! ## §1. States -/

/-- What the reader of a connection is doing. -/
inductive Phase where
  /-- Waiting for the next frame. -/
  | reading
  /-- Holding a request that is not in the queue yet. -/
  | holding (request : String)
  /-- Waiting for the reply to a request in the queue. -/
  | waiting
  /-- Holding a reply that is not written yet. -/
  | replying (reply : String)
  /-- Gone. -/
  | closed
  deriving DecidableEq

/-- A connection of a server. -/
structure Channel where
  /-- The bytes that have come in and have not been read. -/
  unread : List UInt8
  /-- Whether the peer has ended its stream. -/
  ended : Bool
  phase : Phase
  /-- The replies that have been written, in order. -/
  written : List String

namespace Channel

/-- A connection on which nothing has happened. -/
def fresh : Channel := ⟨[], false, .reading, []⟩

/-- The connection with its reader doing something else. -/
def become (channel : Channel) (phase : Phase) : Channel := { channel with phase }

/-- The connection after the server has stopped: a reader that waits for a reply goes. -/
def abandon (channel : Channel) : Channel :=
  match channel.phase with
  | .waiting => channel.become .closed
  | _ => channel

end Channel

/-- A request that was handled: who sent it, what it was and what came of it. -/
structure Handled where
  channel : Nat
  request : String
  outcome : Except Error String

/-- A server and its connections, which are numbered in the order in which they came. -/
structure Server (σ : Type) where
  state : σ
  channels : List Channel
  /-- The requests that wait for the handler, oldest first, each with its connection. -/
  queue : List (Nat × String)
  /-- The requests that were handled, in order. -/
  journal : List Handled
  /-- The failure that stopped the server. -/
  failure : Option Error

/-! ## §2. Events -/

/-- What can happen to a server. -/
inductive ServerEvent where
  /-- A connection is accepted. -/
  | accept
  /-- Bytes come in. -/
  | arrive (channel : Nat) (bytes : List UInt8)
  /-- The peer ends its stream. -/
  | finish (channel : Nat)
  /-- The connection breaks. -/
  | lose (channel : Nat)
  /-- The reader takes a frame, or finds that there is none. -/
  | read (channel : Nat)
  /-- The reader puts its request into the queue. -/
  | enqueue (channel : Nat)
  /-- The handler takes the oldest request and answers it. -/
  | handle
  /-- The reader writes its reply. -/
  | write (channel : Nat)

namespace Server

variable {σ : Type}

/-- The server that starts from a state. -/
def start (state : σ) : Server σ := ⟨state, [], [], [], none⟩

/-- The server with one connection changed. -/
def change (server : Server σ) (channel : Nat) (f : Channel → Channel) : Server σ :=
  { server with channels := server.channels.modify channel f }

/-- The connection with its next frame read, if the frame is there or the stream has ended. -/
def readChannel (c : Channel) : Option Channel :=
  if c.phase = .reading ∧ (c.ended ∨ Frame.isReady c.unread) then
    match Frame.read c.unread with
    | (.ok (some request), rest) => some { c with unread := rest, phase := .holding request }
    | (_, rest) => some { c with unread := rest, phase := .closed }
  else none

/-- The connection with its reply written, or closed if that is too large. -/
def writeChannel (c : Channel) : Option Channel :=
  match c.phase with
  | .replying reply =>
    if Frame.maxPayload < reply.utf8ByteSize then some (c.become .closed)
    else some { c with phase := .reading, written := c.written ++ [reply] }
  | _ => none

/-- The connection after it broke, which a reader that waits for a reply does not notice. -/
def loseChannel (c : Channel) : Option Channel :=
  match c.phase with
  | .reading | .replying _ => some (c.become .closed)
  | _ => none

/-- The server with its oldest request handled. -/
def handleNext (handler : Handler σ) (server : Server σ) : Option (Server σ) :=
  match server.failure, server.queue with
  | none, (channel, request) :: queue =>
    let (outcome, state) := (handler request).outcome server.state
    let journal := server.journal ++ [⟨channel, request, outcome⟩]
    match outcome with
    | .ok reply =>
      some ({ server with state, queue, journal }.change channel (·.become (.replying reply)))
    | .error cause =>
      some ⟨state, server.channels.map Channel.abandon, [], journal, some cause⟩
  | _, _ => none

/-- The server with a request put into its queue; a stopped one takes none and the reader goes. -/
def enqueueFrom (server : Server σ) (channel : Nat) : Option (Server σ) :=
  match server.channels[channel]? with
  | some c =>
    match c.phase, server.failure with
    | .holding request, none =>
      some ({ server with queue := server.queue ++ [(channel, request)] }.change channel
        (·.become .waiting))
    | .holding _, some _ => some (server.change channel (·.become .closed))
    | _, _ => none
  | none => none

/-- The server with one connection moved by a step of its own, if the step is possible. -/
def moveChannel (server : Server σ) (channel : Nat) (move : Channel → Option Channel) :
    Option (Server σ) :=
  (server.channels[channel]?.bind move).map fun c => server.change channel fun _ => c

/-- The server after an event, if the event can happen. -/
def step (handler : Handler σ) (server : Server σ) : ServerEvent → Option (Server σ)
  | .accept => some { server with channels := server.channels ++ [.fresh] }
  | .arrive channel bytes =>
    server.moveChannel channel fun c =>
      if c.ended then none else some { c with unread := c.unread ++ bytes }
  | .finish channel => server.moveChannel channel fun c => some { c with ended := true }
  | .lose channel => server.moveChannel channel loseChannel
  | .read channel => server.moveChannel channel readChannel
  | .enqueue channel => server.enqueueFrom channel
  | .handle => server.handleNext handler
  | .write channel => server.moveChannel channel writeChannel

/-- The server after a list of events, if they can happen one after the other. -/
def run (handler : Handler σ) (server : Server σ) : List ServerEvent → Option (Server σ)
  | [] => some server
  | event :: events =>
    match server.step handler event with
    | some next => next.run handler events
    | none => none

end Server

end CsvQuery

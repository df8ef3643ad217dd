/-
  CsvQuery.Wire.Responder — roles that answer requests, and asking them.

  A responder answers one request at a time.  A request that its handler cannot answer stops it for
  good.  On a connection it answers frame after frame, until the stream ends or a frame is bad, or
  until a reply is too large to be framed; each of these ends that connection only.

  Asking sends one frame and waits for the next frame that arrives.  The system may keep a connection
  from being opened, and may end one after any number of bytes of the answer.
-/
import CsvQuery.Source
import CsvQuery.Wire.Frame

namespace CsvQuery

/-! ## §1. Responders -/

/-- How a role answers a request. -/
abbrev Handler (σ : Type) := String → Work σ String

/-- A role that answers requests while it is running. -/
structure Responder (σ : Type) where
  state : σ
  running : Bool

namespace Responder

variable {σ : Type}

/-- The responder that starts from a state. -/
def start (state : σ) : Responder σ := ⟨state, true⟩

/-- The replies to the frames of a stream that a connection of its own brings. -/
def converse (handler : Handler σ) (stream : List UInt8) (responder : Responder σ) :
    List String × Responder σ :=
  if responder.running then
    match _h : Frame.read stream with
    | (.ok (some request), rest) =>
      match (handler request).outcome responder.state with
      | (.ok reply, state) =>
        if Frame.maxPayload < reply.utf8ByteSize then ([], { responder with state })
        else
          let (replies, responder) := converse handler rest { responder with state }
          (reply :: replies, responder)
      | (.error _, state) => ([], ⟨state, false⟩)
    | _ => ([], responder)
  else ([], responder)
termination_by stream.length
decreasing_by
  have h := Frame.length_read_lt stream (by rw [_h]; rfl)
  rw [_h] at h
  exact h

/-- The frames of replies, one after the other. -/
def framesOf (replies : List String) : List UInt8 := (Frame.writeAll [] replies).2

end Responder

/-! ## §2. Asking -/

/-- What the system does to one request and its answer. -/
structure Passing where
  /-- Why no connection can be opened, if none can. -/
  refusal : Option IoFault
  /-- The number of bytes of the answer after which the connection is lost, if it is. -/
  lossAfter : Option Nat

namespace Passing

/-- Nothing goes wrong. -/
def smooth : Passing := ⟨none, none⟩

/-- No connection can be opened. -/
def refused (fault : IoFault) : Passing := ⟨some fault, none⟩

/-- What the system does on the way to an address where a role may be listening or not. -/
def toward (passing : Passing) (listening : Bool) : Passing :=
  if listening || passing.refusal.isSome then passing else .refused .connectionRefused

/-- The bytes of an answer that arrive. -/
def arriving (passing : Passing) (answer : List UInt8) : List UInt8 :=
  match passing.lossAfter with
  | none => answer
  | some count => answer.take count

end Passing

/-- An open connection, seen by the one who asks: the bytes that have arrived and are not yet read. -/
structure Connection where
  unread : List UInt8

namespace Connection

/-- A new connection, unless the system refuses it. -/
def opened (passing : Passing) : Except Error Connection :=
  match passing.refusal with
  | none => .ok ⟨[]⟩
  | some fault => .error (.ofFault fault)

/-- The next message on a connection, once all that will arrive has arrived. -/
def receive (connection : Connection) : Except Error (String × Connection) :=
  match Frame.read connection.unread with
  | (.ok (some message), rest) => .ok (message, ⟨rest⟩)
  | (.ok none, _) => .error .connectionClosed
  | (.error cause, _) => .error cause

/-- Sends a message to a responder on a connection and waits for the answer. -/
def request {σ : Type} (handler : Handler σ) (passing : Passing) (message : String)
    (connection : Connection) (responder : Responder σ) :
    Except Error (String × Connection) × Responder σ :=
  match Frame.encode message with
  | .error cause => (.error cause, responder)
  | .ok frame =>
    let (replies, responder) := responder.converse handler frame.data.toList
    let arrived := passing.arriving (Responder.framesOf replies)
    (receive ⟨connection.unread ++ arrived⟩, responder)

end Connection

end CsvQuery

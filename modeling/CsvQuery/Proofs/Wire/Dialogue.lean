/-
  CsvQuery.Proofs.Wire.Dialogue — one connection of a server and its requests.

  A server can do a few things only to a connection: move its reader, take its request into the queue,
  answer the request, or stop.  None of them loses a request, puts one before another or writes a reply
  that is not the answer to the oldest request without one.  So at all times what was read off a stream
  is, in order, what was handled, what is in the queue and what the reader holds, and the answers are,
  in order, what was written and at most one more.

  Main results:
    • `Dialogue.Conforms.step` — every step keeps requests and replies in order
    • `Dialogue.Step.of_closed` — nothing happens to a closed connection any more
    • `Dialogue.Step.sent` — without a new answer, only the reply that the reader holds can be written
-/
import CsvQuery.Proofs.Wire.Frame
import CsvQuery.Wire.Serve

namespace CsvQuery

/-! ## §1. What the reader does -/

namespace Channel

/-- The request that the reader holds. -/
def held (channel : Channel) : List String :=
  match channel.phase with
  | .holding request => [request]
  | _ => []

/-- The answer that the reader holds. -/
def inFlight (channel : Channel) : List (Except Error String) :=
  match channel.phase with
  | .replying reply => [.ok reply]
  | _ => []

/-- What can become of a connection by itself, while bytes come in. -/
inductive Move : Channel → List UInt8 → Channel → Prop
  | arrive (c : Channel) (bytes : List UInt8) : Move c bytes { c with unread := c.unread ++ bytes }
  | finish (c : Channel) : Move c [] { c with ended := true }
  | take {c : Channel} {request : String} {rest : List UInt8} (reading : c.phase = .reading)
      (read : Frame.read c.unread = (.ok (some request), rest)) :
      Move c [] { c with unread := rest, phase := .holding request }
  | write {c : Channel} {reply : String} (replying : c.phase = .replying reply)
      (fits : Frame.Fits reply) :
      Move c [] { c with phase := .reading, written := c.written ++ [reply] }
  | close {c : Channel} (unread : List UInt8) (moving : c.phase ≠ .waiting) :
      Move c [] { c with unread, phase := .closed }

theorem held_eq_nil {c : Channel} (h : ∀ request, c.phase ≠ .holding request) : c.held = [] := by
  unfold held
  split
  case h_1 request heq => exact absurd heq (h request)
  case h_2 => rfl

theorem inFlight_eq_nil {c : Channel} (h : ∀ reply, c.phase ≠ .replying reply) :
    c.inFlight = [] := by
  unfold inFlight
  split
  case h_1 reply heq => exact absurd heq (h reply)
  case h_2 => rfl

theorem abandon_of_waiting {c : Channel} (h : c.phase = .waiting) :
    c.abandon = c.become .closed := by
  unfold abandon
  rw [h]

theorem abandon_of_ne {c : Channel} (h : c.phase ≠ .waiting) : c.abandon = c := by
  unfold abandon
  split
  case h_1 heq => exact absurd heq h
  case h_2 => rfl

namespace Move

variable {c next : Channel} {bytes : List UInt8}

/-- The reader itself never starts or ends waiting. -/
theorem waiting_iff (h : c.Move bytes next) : next.phase = .waiting ↔ c.phase = .waiting := by
  cases h with
  | arrive => exact Iff.rfl
  | finish => exact Iff.rfl
  | take reading read =>
    rw [reading]
    exact iff_of_false nofun nofun
  | write replying fits =>
    rw [replying]
    exact iff_of_false nofun nofun
  | close unread moving => exact iff_of_false nofun moving

/-- What is held for the queue is what was held for it and the frame that was read. -/
theorem taken (h : c.Move bytes next) :
    (next.phase = .closed ∧ next.held = []) ∨
      ∃ taken, next.held = c.held ++ taken ∧ (∀ request ∈ taken, Frame.Fits request) ∧
        c.unread ++ bytes = taken.flatMap Frame.frame ++ next.unread ∧
        (c.phase = .closed → taken = []) := by
  cases h with
  | arrive =>
    exact .inr ⟨[], (List.append_nil _).symm, List.forall_mem_nil _, rfl, fun _ => rfl⟩
  | finish =>
    exact .inr ⟨[], (List.append_nil _).symm, List.forall_mem_nil _,
      List.append_nil _, fun _ => rfl⟩
  | @take request rest reading read =>
    obtain ⟨hfits, hunread⟩ := Frame.read_eq_some_iff.mp read
    have hnone : c.held = [] := held_eq_nil fun request h => by
      rw [reading] at h
      cases h
    refine .inr ⟨[request], ?_, List.forall_mem_singleton.mpr hfits, ?_, fun h => ?_⟩
    · rw [hnone]
      rfl
    · rw [hunread, List.append_nil, List.flatMap_singleton]
    · rw [h] at reading
      cases reading
  | write replying fits =>
    have hnone : c.held = [] := held_eq_nil fun request h => by
      rw [replying] at h
      cases h
    rw [hnone]
    exact .inr ⟨[], rfl, List.forall_mem_nil _, List.append_nil _, fun _ => rfl⟩
  | close unread moving => exact .inl ⟨rfl, rfl⟩

/-- What is written is what was held for writing. -/
theorem sent (h : c.Move bytes next) :
    ∃ sent, next.written = c.written ++ sent ∧ (∀ reply ∈ sent, Frame.Fits reply) ∧
      sent.map .ok ++ next.inFlight <+: c.inFlight ∧
      (next.phase ≠ .closed → sent.map .ok ++ next.inFlight = c.inFlight) := by
  cases h with
  | arrive =>
    exact ⟨[], (List.append_nil _).symm, List.forall_mem_nil _,
      List.prefix_refl _, fun _ => rfl⟩
  | finish =>
    exact ⟨[], (List.append_nil _).symm, List.forall_mem_nil _,
      List.prefix_refl _, fun _ => rfl⟩
  | take reading read =>
    have hnone : c.inFlight = [] := inFlight_eq_nil fun reply h => by
      rw [reading] at h
      cases h
    rw [hnone]
    exact ⟨[], (List.append_nil _).symm, List.forall_mem_nil _,
      List.prefix_refl _, fun _ => rfl⟩
  | @write reply replying fits =>
    have hheld : c.inFlight = [.ok reply] := by
      unfold inFlight
      rw [replying]
    rw [hheld]
    exact ⟨[reply], rfl, List.forall_mem_singleton.mpr fits, List.prefix_refl _, fun _ => rfl⟩
  | close unread moving =>
    exact ⟨[], (List.append_nil _).symm, List.forall_mem_nil _,
      List.nil_prefix, fun h => absurd rfl h⟩

/-- Nothing is written on a closed connection, and it stays closed. -/
theorem of_closed (h : c.Move bytes next) (hclosed : c.phase = .closed) :
    next.phase = .closed ∧ next.written = c.written := by
  cases h with
  | arrive => exact ⟨hclosed, rfl⟩
  | finish => exact ⟨hclosed, rfl⟩
  | take reading read =>
    rw [hclosed] at reading
    cases reading
  | write replying fits =>
    rw [hclosed] at replying
    cases replying
  | close unread moving => exact ⟨rfl, rfl⟩

end Move

end Channel

/-! ## §2. Dialogues -/

/-- A connection of a server, its requests in the queue and what was handled of it. -/
structure Dialogue where
  channel : Channel
  queued : List String
  handled : List Handled

namespace Dialogue

/-- The requests that were handled, in order. -/
def requests (d : Dialogue) : List String := d.handled.map Handled.request

/-- The answers to them. -/
def outcomes (d : Dialogue) : List (Except Error String) := d.handled.map Handled.outcome

/-- All requests that were read, in order. -/
def asked (d : Dialogue) : List String := d.requests ++ d.queued ++ d.channel.held

/-- What can become of a dialogue, while bytes come in. -/
inductive Step : Dialogue → List UInt8 → Dialogue → Prop
  | idle (d : Dialogue) : Step d [] d
  | move {d : Dialogue} {bytes : List UInt8} {c : Channel} (move : d.channel.Move bytes c) :
      Step d bytes { d with channel := c }
  | enqueue {d : Dialogue} {request : String} (holding : d.channel.phase = .holding request) :
      Step d [] { d with channel := d.channel.become .waiting, queued := d.queued ++ [request] }
  | reply {d : Dialogue} {request : String} {queued : List String} (k : Nat) (reply : String)
      (oldest : d.queued = request :: queued) :
      Step d []
        ⟨d.channel.become (.replying reply), queued, d.handled ++ [⟨k, request, .ok reply⟩]⟩
  | fail {d : Dialogue} {request : String} {queued : List String} (k : Nat) (cause : Error)
      (oldest : d.queued = request :: queued) :
      Step d [] ⟨d.channel.abandon, [], d.handled ++ [⟨k, request, .error cause⟩]⟩
  | abandon (d : Dialogue) : Step d [] ⟨d.channel.abandon, [], d.handled⟩

/-- What was read does not change when the oldest request in the queue is answered. -/
theorem asked_answered (d : Dialogue) {c : Channel} (hheld : c.held = []) (queued : List String)
    (entry : Handled) :
    asked ⟨c, queued, d.handled ++ [entry]⟩ = d.requests ++ entry.request :: queued := by
  show (d.handled ++ [entry]).map Handled.request ++ queued ++ c.held = _
  rw [hheld, List.append_nil, List.map_append, List.append_assoc]
  rfl

theorem outcomes_answered (d : Dialogue) (c : Channel) (queued : List String) (entry : Handled) :
    outcomes ⟨c, queued, d.handled ++ [entry]⟩ = d.outcomes ++ [entry.outcome] :=
  List.map_append

/-! ## §3. Requests and replies in order -/

/-- Requests and replies are in order, on a connection on which these bytes have come in. -/
structure Conforms (stream : List UInt8) (d : Dialogue) : Prop where
  /-- What was read are the first well-formed frames. -/
  isPrefix_asked : d.asked <+: Frame.payloads stream
  /-- While the connection is open, what follows them is still to be read. -/
  stream_eq : d.channel.phase ≠ .closed → stream = d.asked.flatMap Frame.frame ++ d.channel.unread
  /-- The queue has a request of the connection exactly while its reader waits. -/
  length_queued : d.queued.length = if d.channel.phase = .waiting then 1 else 0
  /-- The answers are what was written, and while the connection is open what is to be written. -/
  outcomes_eq : ∃ last, d.outcomes = d.channel.written.map .ok ++ last ∧ last.length ≤ 1 ∧
    (d.channel.phase ≠ .closed → last = d.channel.inFlight)
  written_fits : ∀ reply ∈ d.channel.written, Frame.Fits reply

namespace Conforms

variable {stream bytes : List UInt8} {d next : Dialogue}

theorem start : Conforms [] ⟨.fresh, [], []⟩ where
  isPrefix_asked := List.nil_prefix
  stream_eq _ := rfl
  length_queued := rfl
  outcomes_eq := ⟨[], rfl, Nat.zero_le 1, fun _ => rfl⟩
  written_fits _ h := absurd h List.not_mem_nil

/-- The requests handled are the first well-formed frames. -/
theorem isPrefix_requests (h : Conforms stream d) : d.requests <+: Frame.payloads stream := by
  have hasked := h.isPrefix_asked
  unfold asked at hasked
  rw [List.append_assoc] at hasked
  exact (List.prefix_append _ _).trans hasked

/-- Nothing of a connection is in the queue unless its reader waits. -/
theorem queued_eq_nil (h : Conforms stream d) (hphase : d.channel.phase ≠ .waiting) :
    d.queued = [] := by
  have hlength := h.length_queued
  rw [if_neg hphase] at hlength
  exact List.eq_nil_of_length_eq_zero hlength

/-- A request in the queue is the only one, and the reader waits for its answer. -/
theorem of_queued (h : Conforms stream d) {request : String} {queued : List String}
    (hqueued : d.queued = request :: queued) : d.channel.phase = .waiting ∧ queued = [] := by
  have hlength := h.length_queued
  rw [hqueued, List.length_cons] at hlength
  split at hlength
  case isTrue hphase => exact ⟨hphase, List.eq_nil_of_length_eq_zero (by omega)⟩
  case isFalse => omega

/-- At most one request of a connection is in the queue. -/
theorem length_queued_le (h : Conforms stream d) : d.queued.length ≤ 1 := by
  have hlength := h.length_queued
  split at hlength <;> omega

/-- Requests that are dropped from the end of a dialogue leave the rest of them in order. -/
theorem prefix_of_asked (h : Conforms stream d) {asked : List String} (hasked : asked <+: d.asked)
    (bytes : List UInt8) : asked <+: Frame.payloads (stream ++ bytes) := by
  obtain ⟨hfits, hprefix⟩ := Frame.prefix_payloads_iff.mp (hasked.trans h.isPrefix_asked)
  exact Frame.prefix_payloads_iff.mpr ⟨hfits, hprefix.trans (List.prefix_append _ _)⟩

/-- Frames that come first in what is still to be read prolong what was read. -/
theorem asked_append (h : Conforms stream d) (hopen : d.channel.phase ≠ .closed)
    {taken : List String} {rest : List UInt8} (hfits : ∀ request ∈ taken, Frame.Fits request)
    (hunread : d.channel.unread ++ bytes = taken.flatMap Frame.frame ++ rest) :
    d.asked ++ taken <+: Frame.payloads (stream ++ bytes) ∧
      stream ++ bytes = (d.asked ++ taken).flatMap Frame.frame ++ rest := by
  have hstream : stream ++ bytes = (d.asked ++ taken).flatMap Frame.frame ++ rest := by
    rw [h.stream_eq hopen, List.append_assoc, hunread, List.flatMap_append, List.append_assoc]
  have hasked := (Frame.prefix_payloads_iff.mp h.isPrefix_asked).1
  refine ⟨Frame.prefix_payloads_iff.mpr ⟨List.forall_mem_append.mpr ⟨hasked, hfits⟩, ?_⟩, hstream⟩
  exact ⟨rest, hstream.symm⟩

/-- What the reader does puts no request out of order and loses none. -/
theorem asked_of_move (h : Conforms stream d) {c : Channel} (hmove : d.channel.Move bytes c) :
    asked { d with channel := c } <+: Frame.payloads (stream ++ bytes) ∧
      (c.phase ≠ .closed →
        stream ++ bytes = (asked { d with channel := c }).flatMap Frame.frame ++ c.unread) := by
  show d.requests ++ d.queued ++ c.held <+: _ ∧
    (_ → _ = (d.requests ++ d.queued ++ c.held).flatMap Frame.frame ++ c.unread)
  rcases hmove.taken with ⟨hclosed, hnone⟩ | ⟨taken, hheld, hfits, hunread, hgone⟩
  · rw [hnone, List.append_nil]
    exact ⟨h.prefix_of_asked (List.prefix_append _ _) bytes, fun hopen => absurd hclosed hopen⟩
  · rw [hheld, ← List.append_assoc]
    by_cases hclosed : d.channel.phase = .closed
    · rw [hgone hclosed, List.append_nil]
      exact ⟨h.prefix_of_asked (List.prefix_refl _) bytes,
        fun hopen => absurd (hmove.of_closed hclosed).1 hopen⟩
    · have hasked := h.asked_append hclosed hfits hunread
      exact ⟨hasked.1, fun _ => hasked.2⟩

/-- What the reader does writes the answer that it holds or keeps it, and no other. -/
theorem outcomes_of_move (h : Conforms stream d) {c : Channel} (hmove : d.channel.Move bytes c) :
    ∃ last, d.outcomes = c.written.map .ok ++ last ∧ last.length ≤ 1 ∧
      (c.phase ≠ .closed → last = c.inFlight) := by
  obtain ⟨last, houtcomes, hlast, hflight⟩ := h.outcomes_eq
  by_cases hclosed : d.channel.phase = .closed
  · obtain ⟨hphase, hsame⟩ := hmove.of_closed hclosed
    rw [hsame]
    exact ⟨last, houtcomes, hlast, fun hopen => absurd hphase hopen⟩
  · -- what was sent is taken off the answers that were left, and what was dropped stays
    obtain ⟨sent, hwritten, -, hprefix, hheld⟩ := hmove.sent
    rw [← hflight hclosed] at hprefix hheld
    obtain ⟨unsent, hunsent⟩ := hprefix
    rw [List.append_assoc] at hunsent
    refine ⟨c.inFlight ++ unsent, ?_, ?_, fun hopen => ?_⟩
    · rw [houtcomes, hwritten, List.map_append, List.append_assoc, hunsent]
    · rw [← hunsent, List.length_append] at hlast
      omega
    · have hall := hheld hopen
      rw [← hunsent] at hall
      exact (List.append_cancel_left hall).symm

/-- The reader keeps requests and replies in order. -/
theorem move (h : Conforms stream d) {c : Channel} (hmove : d.channel.Move bytes c) :
    Conforms (stream ++ bytes) { d with channel := c } := by
  have hrequests := h.asked_of_move hmove
  have hlength : d.queued.length = if c.phase = .waiting then 1 else 0 := by
    rw [h.length_queued]
    simp only [hmove.waiting_iff]
  refine ⟨hrequests.1, hrequests.2, hlength, h.outcomes_of_move hmove, ?_⟩
  obtain ⟨sent, hwritten, hsent, -⟩ := hmove.sent
  show ∀ reply ∈ c.written, Frame.Fits reply
  rw [hwritten]
  exact List.forall_mem_append.mpr ⟨h.written_fits, hsent⟩

/-- Taking the request that is held into the queue keeps them in order. -/
theorem enqueue (h : Conforms stream d) {request : String}
    (holding : d.channel.phase = .holding request) :
    Conforms stream
      { d with channel := d.channel.become .waiting, queued := d.queued ++ [request] } := by
  have hopen : d.channel.phase ≠ .closed := fun hclosed => nomatch holding.symm.trans hclosed
  have hqueued : d.queued = [] := h.queued_eq_nil fun hwaiting => nomatch holding.symm.trans hwaiting
  have hheld : d.channel.held = [request] := by
    unfold Channel.held
    rw [holding]
  have hflight : d.channel.inFlight = [] :=
    Channel.inFlight_eq_nil fun reply hreply => nomatch holding.symm.trans hreply
  have hasked : d.requests ++ (d.queued ++ [request]) ++ [] = d.asked := by
    rw [asked, hheld, List.append_nil, List.append_assoc]
  refine ⟨?_, fun _ => ?_, ?_, ?_, h.written_fits⟩
  · show d.requests ++ (d.queued ++ [request]) ++ [] <+: _
    rw [hasked]
    exact h.isPrefix_asked
  · show stream = (d.requests ++ (d.queued ++ [request]) ++ []).flatMap Frame.frame ++ _
    rw [hasked]
    exact h.stream_eq hopen
  · show (d.queued ++ [request]).length = 1
    rw [hqueued]
    rfl
  · obtain ⟨last, houtcomes, hlast, hlast_eq⟩ := h.outcomes_eq
    exact ⟨last, houtcomes, hlast, fun _ => (hlast_eq hopen).trans hflight⟩

/-- While the reader waits, all answers have been written, and its request is the last that was read. -/
theorem of_waiting (h : Conforms stream d) (hwaiting : d.channel.phase = .waiting) :
    d.asked = d.requests ++ d.queued ∧ d.outcomes = d.channel.written.map .ok := by
  have hopen : d.channel.phase ≠ .closed := fun hclosed => nomatch hwaiting.symm.trans hclosed
  have hheld : d.channel.held = [] :=
    Channel.held_eq_nil fun request hrequest => nomatch hwaiting.symm.trans hrequest
  have hflight : d.channel.inFlight = [] :=
    Channel.inFlight_eq_nil fun reply hreply => nomatch hwaiting.symm.trans hreply
  obtain ⟨last, houtcomes, -, hlast⟩ := h.outcomes_eq
  constructor
  · rw [asked, hheld, List.append_nil]
  · rw [houtcomes, hlast hopen, hflight, List.append_nil]

/-- Answering the oldest request keeps them in order. -/
theorem reply (h : Conforms stream d) {request : String} {queued : List String} (k : Nat)
    (reply : String) (oldest : d.queued = request :: queued) :
    Conforms stream
      ⟨d.channel.become (.replying reply), queued, d.handled ++ [⟨k, request, .ok reply⟩]⟩ := by
  obtain ⟨hwaiting, hnone⟩ := h.of_queued oldest
  obtain ⟨hread, houtcomes⟩ := h.of_waiting hwaiting
  have hopen : d.channel.phase ≠ .closed := fun hclosed => nomatch hwaiting.symm.trans hclosed
  have hasked : asked ⟨d.channel.become (.replying reply), queued,
      d.handled ++ [⟨k, request, .ok reply⟩]⟩ = d.asked := by
    rw [asked_answered d rfl, hread, oldest]
  refine ⟨?_, fun _ => ?_, ?_, ⟨[.ok reply], ?_, Nat.le_refl 1, fun _ => rfl⟩, h.written_fits⟩
  · rw [hasked]
    exact h.isPrefix_asked
  · rw [hasked]
    exact h.stream_eq hopen
  · rw [hnone]
    rfl
  · rw [outcomes_answered, houtcomes]
    rfl

/-- Failing at the oldest request keeps them in order: the failure is its answer and the last one. -/
theorem fail (h : Conforms stream d) {request : String} {queued : List String} (k : Nat)
    (cause : Error) (oldest : d.queued = request :: queued) :
    Conforms stream ⟨d.channel.abandon, [], d.handled ++ [⟨k, request, .error cause⟩]⟩ := by
  obtain ⟨hwaiting, hnone⟩ := h.of_queued oldest
  obtain ⟨hread, houtcomes⟩ := h.of_waiting hwaiting
  rw [Channel.abandon_of_waiting hwaiting]
  refine ⟨?_, fun hopen => absurd rfl hopen, rfl,
    ⟨[.error cause], ?_, Nat.le_refl 1, fun hopen => absurd rfl hopen⟩, h.written_fits⟩
  · rw [asked_answered d rfl, ← hnone, ← oldest, ← hread]
    exact h.isPrefix_asked
  · rw [outcomes_answered, houtcomes]
    rfl

/-- A server that stops drops the request in the queue together with the connection. -/
theorem abandon (h : Conforms stream d) : Conforms stream ⟨d.channel.abandon, [], d.handled⟩ := by
  by_cases hwaiting : d.channel.phase = .waiting
  · obtain ⟨hread, houtcomes⟩ := h.of_waiting hwaiting
    rw [Channel.abandon_of_waiting hwaiting]
    refine ⟨?_, fun hopen => absurd rfl hopen, rfl,
      ⟨[], ?_, Nat.zero_le 1, fun hopen => absurd rfl hopen⟩, h.written_fits⟩
    · refine List.IsPrefix.trans ?_ h.isPrefix_asked
      show d.requests ++ [] ++ [] <+: _
      rw [List.append_nil, List.append_nil, hread]
      exact List.prefix_append _ _
    · rw [List.append_nil]
      exact houtcomes
  · rw [Channel.abandon_of_ne hwaiting, ← h.queued_eq_nil hwaiting]
    exact h

/-- Every step keeps requests and replies in order. -/
theorem step (h : Conforms stream d) (hstep : d.Step bytes next) :
    Conforms (stream ++ bytes) next := by
  cases hstep with
  | move hmove => exact h.move hmove
  | idle =>
    rw [List.append_nil]
    exact h
  | enqueue holding =>
    rw [List.append_nil]
    exact h.enqueue holding
  | reply k reply oldest =>
    rw [List.append_nil]
    exact h.reply k reply oldest
  | fail k cause oldest =>
    rw [List.append_nil]
    exact h.fail k cause oldest
  | abandon =>
    rw [List.append_nil]
    exact h.abandon

end Conforms

/-! ## §4. The end of a connection -/

/-- Nothing more is read, handled or written on a closed connection. -/
theorem Step.of_closed {stream bytes : List UInt8} {d next : Dialogue} (hstep : d.Step bytes next)
    (h : Conforms stream d) (hclosed : d.channel.phase = .closed) :
    next.channel.phase = .closed ∧ next.handled = d.handled ∧
      next.channel.written = d.channel.written := by
  have hnone : d.queued = [] := h.queued_eq_nil fun hwaiting => nomatch hclosed.symm.trans hwaiting
  cases hstep with
  | idle => exact ⟨hclosed, rfl, rfl⟩
  | move hmove =>
    obtain ⟨hphase, hwritten⟩ := hmove.of_closed hclosed
    exact ⟨hphase, rfl, hwritten⟩
  | enqueue holding => exact absurd (holding.symm.trans hclosed) nofun
  | reply k reply oldest => exact absurd (hnone.symm.trans oldest) nofun
  | fail k cause oldest => exact absurd (hnone.symm.trans oldest) nofun
  | abandon =>
    rw [Channel.abandon_of_ne fun hwaiting => nomatch hclosed.symm.trans hwaiting]
    exact ⟨hclosed, rfl, rfl⟩

/-- Without a new answer and without anything in the queue, only the reply that the reader holds can be
written. -/
theorem Step.sent {bytes : List UInt8} {d next : Dialogue} (hstep : d.Step bytes next)
    (hqueued : next.queued = []) (hhandled : next.handled = d.handled) :
    ∃ sent, next.channel.written = d.channel.written ++ sent ∧
      sent.map .ok ++ next.channel.inFlight <+: d.channel.inFlight := by
  cases hstep with
  | idle => exact ⟨[], (List.append_nil _).symm, List.prefix_refl _⟩
  | move hmove =>
    obtain ⟨sent, hwritten, -, hprefix, -⟩ := hmove.sent
    exact ⟨sent, hwritten, hprefix⟩
  | enqueue holding => exact absurd hqueued (List.append_ne_nil_of_right_ne_nil _ (by simp))
  | reply k reply oldest => simp at hhandled
  | fail k cause oldest => simp at hhandled
  | abandon =>
    by_cases hwaiting : d.channel.phase = .waiting
    · rw [Channel.abandon_of_waiting hwaiting]
      exact ⟨[], (List.append_nil _).symm, List.nil_prefix⟩
    · rw [Channel.abandon_of_ne hwaiting]
      exact ⟨[], (List.append_nil _).symm, List.prefix_refl _⟩

end Dialogue

end CsvQuery

/-
  CsvQuery.Proofs.Wire.Exchange — one request on a connection that has nothing else to do.

  While the peer of a connection waits, only a few things can happen to the connection, whatever else goes
  on at the server.  So a request that is sent on a connection at rest goes through the same stages under
  any interleaving, and what comes of it is its own reply, or nothing.

  Main results:
    • `served_of_step` — what a step is to a connection whose peer waits
    • `Resting.step`, `Exchange.step` — a connection at rest, and one with a request on the way
    • `IsInOrder.attend_resting`, `IsInOrder.attend_exchange` — the same under all that can happen
-/
import CsvQuery.Proofs.Wire.Serve

namespace CsvQuery

variable {σ : Type}

/-! ## §1. A connection whose peer waits -/

/-- All that an event can do to a dialogue whose peer does nothing; some of it only a server that has
`stopped` does. -/
inductive Dialogue.Served (stopped : Prop) (k : Nat) (d : Dialogue) : ServerEvent → Dialogue → Prop
  | idle (event : ServerEvent) : Served stopped k d event d
  | read {c : Channel} (read : Server.readChannel d.channel = some c) :
      Served stopped k d (.read k) { d with channel := c }
  | write {c : Channel} (write : Server.writeChannel d.channel = some c) :
      Served stopped k d (.write k) { d with channel := c }
  | lose {c : Channel} (lose : Server.loseChannel d.channel = some c) :
      Served stopped k d (.lose k) { d with channel := c }
  | enqueue {request : String} (holding : d.channel.phase = .holding request) :
      Served stopped k d (.enqueue k)
        { d with channel := d.channel.become .waiting, queued := d.queued ++ [request] }
  | refuse {request : String} (holding : d.channel.phase = .holding request) (why : stopped) :
      Served stopped k d (.enqueue k) { d with channel := d.channel.become .closed }
  | reply {request : String} {queued : List String} (reply : String)
      (oldest : d.queued = request :: queued) :
      Served stopped k d .handle
        ⟨d.channel.become (.replying reply), queued, d.handled ++ [⟨k, request, .ok reply⟩]⟩
  | fail {request : String} {queued : List String} (cause : Error)
      (oldest : d.queued = request :: queued) (why : stopped) :
      Served stopped k d .handle ⟨d.channel.abandon, [], d.handled ++ [⟨k, request, .error cause⟩]⟩
  | abandon (why : stopped) : Served stopped k d .handle ⟨d.channel.abandon, [], d.handled⟩

namespace Server

variable {handler : Handler σ} {server next : Server σ} {k : Nat}

theorem dialogue_change_of_ne {j : Nat} (h : j ≠ k) (server : Server σ) (f : Channel → Channel) :
    (server.change j f).dialogue k = server.dialogue k :=
  (changesOnly_change server j f).dialogue_eq k h

theorem dialogue_change_self {c : Channel} (h : server.channels[k]? = some c)
    (f : Channel → Channel) :
    (server.change k f).dialogue k = { server.dialogue k with channel := f c } := by
  show (⟨channelOf (server.channels.modify k f) k, _, _⟩ : Dialogue) = _
  rw [channelOf_modify_self h]
  rfl

/-- A step of a connection of its own is nothing to any other one. -/
theorem served_of_moveChannel {j : Nat} {event : ServerEvent} {move : Channel → Option Channel}
    {stopped : Prop} (h : server.moveChannel j move = some next)
    (hself : ∀ c, j = k → move (server.dialogue k).channel = some c →
      (server.dialogue k).Served stopped k event { server.dialogue k with channel := c }) :
    (server.dialogue k).Served stopped k event (next.dialogue k) := by
  obtain ⟨c', hbind, rfl⟩ := Option.map_eq_some_iff.mp h
  obtain ⟨c, hpresent, hc⟩ := Option.bind_eq_some_iff.mp hbind
  by_cases hj : j = k
  · subst hj
    rw [dialogue_change_self hpresent]
    exact hself c' rfl (by rwa [← channelOf_of_present hpresent] at hc)
  · rw [dialogue_change_of_ne hj]
    exact .idle _

/-- Letting a request into the queue serves its connection and none else. -/
theorem served_of_enqueueFrom {j : Nat} (h : server.enqueueFrom j = some next) :
    (server.dialogue k).Served (next.failure ≠ none) k (.enqueue j) (next.dialogue k) := by
  unfold enqueueFrom at h
  split at h
  case h_2 => cases h
  case h_1 c hpresent =>
    rw [← channelOf_of_present hpresent] at h
    split at h
    case h_1 request hphase hrunning =>
      cases h
      show (server.dialogue k).Served _ k _ ⟨channelOf (server.channels.modify j _) k,
        queuedOf (server.queue ++ [(j, request)]) k, (server.dialogue k).handled⟩
      rw [queuedOf_append]
      by_cases hj : j = k
      · subst hj
        rw [channelOf_modify_self hpresent, queuedOf_cons_self, ← channelOf_of_present hpresent]
        exact .enqueue hphase
      · rw [channelOf_modify_of_ne hj, queuedOf_cons_of_ne hj]
        show (server.dialogue k).Served _ k _ ⟨_, queuedOf server.queue k ++ [], _⟩
        rw [List.append_nil]
        exact .idle _
    case h_2 request cause hphase hstopped =>
      cases h
      by_cases hj : j = k
      · subst hj
        rw [dialogue_change_self hpresent, ← channelOf_of_present hpresent]
        exact .refuse hphase fun hnone => nomatch hstopped.symm.trans hnone
      · rw [dialogue_change_of_ne hj]
        exact .idle _
    case h_3 => cases h

/-- The oldest request is answered, or the server stops. -/
theorem handleNext_cases (h : server.handleNext handler = some next) :
    ∃ j request queue state, server.queue = (j, request) :: queue ∧
      ((∃ reply, (handler request).outcome server.state = (.ok reply, state) ∧
        next = ({ server with
            state, queue, journal := server.journal ++ [⟨j, request, .ok reply⟩] } : Server σ).change j
          (·.become (.replying reply))) ∨
      ∃ cause, (handler request).outcome server.state = (.error cause, state) ∧
        next = ⟨state, server.channels.map Channel.abandon, [],
          server.journal ++ [⟨j, request, .error cause⟩], some cause⟩) := by
  unfold handleNext at h
  split at h
  case h_2 => cases h
  case h_1 j request queue hrunning hqueue =>
    refine ⟨j, request, queue, ((handler request).outcome server.state).2, hqueue, ?_⟩
    cases houtcome : (handler request).outcome server.state with
    | mk outcome state =>
      rw [houtcome] at h
      cases outcome with
      | ok reply =>
        cases h
        exact .inl ⟨reply, rfl, rfl⟩
      | error cause =>
        cases h
        exact .inr ⟨cause, rfl, rfl⟩

/-- Handling a request serves its connection, and a failure is the end of all that wait. -/
theorem served_of_handleNext (h : server.handleNext handler = some next)
    (hwaiting : (server.dialogue k).queued ≠ [] → (server.dialogue k).channel.phase = .waiting) :
    (server.dialogue k).Served (next.failure ≠ none) k .handle (next.dialogue k) := by
  obtain ⟨j, request, queue, state, hqueue, ⟨reply, -, rfl⟩ | ⟨cause, -, rfl⟩⟩ := handleNext_cases h
  · show (server.dialogue k).Served _ k .handle
      ⟨channelOf (server.channels.modify j _) k, queuedOf queue k, handledOf (_ ++ [_]) k⟩
    by_cases hj : j = k
    · subst hj
      -- a reader that waits is there, so its connection does get the reply
      have hqueued := queued_of_oldest hqueue
      have hphase := hwaiting (by rw [hqueued]; exact List.cons_ne_nil _ _)
      have hpresent := present_of_phase_ne fun hreading => nomatch hphase.symm.trans hreading
      rw [channelOf_modify_self hpresent, handledOf_append_self]
      exact .reply reply hqueued
    · have hqueued : queuedOf queue k = queuedOf server.queue k := by
        rw [hqueue, queuedOf_cons_of_ne hj]
      rw [channelOf_modify_of_ne hj, handledOf_append_of_ne hj, hqueued]
      exact .idle _
  · show (server.dialogue k).Served _ k .handle
      ⟨channelOf (server.channels.map Channel.abandon) k, [], handledOf (_ ++ [_]) k⟩
    rw [channelOf_map_abandon]
    by_cases hj : j = k
    · subst hj
      rw [handledOf_append_self]
      exact .fail cause (queued_of_oldest hqueue) nofun
    · rw [handledOf_append_of_ne hj]
      exact .abandon nofun

/-- A step does no more than that to a connection whose peer waits. -/
theorem served_of_step {event : ServerEvent} (h : server.step handler event = some next)
    (hpeer : event.isBy k = false)
    (hwaiting : (server.dialogue k).queued ≠ [] → (server.dialogue k).channel.phase = .waiting) :
    (server.dialogue k).Served (next.failure ≠ none) k event (next.dialogue k) := by
  cases event with
  | accept =>
    cases h
    show (server.dialogue k).Served _ k _ ⟨channelOf (server.channels ++ [.fresh]) k, _, _⟩
    rw [channelOf_append_fresh]
    exact .idle _
  | arrive j bytes => exact served_of_moveChannel h fun _ hj => absurd hj (ne_of_beq_false hpeer)
  | finish j => exact served_of_moveChannel h fun _ hj => absurd hj (ne_of_beq_false hpeer)
  | lose j => exact served_of_moveChannel h fun _ hj hc => by subst hj; exact .lose hc
  | read j => exact served_of_moveChannel h fun _ hj hc => by subst hj; exact .read hc
  | write j => exact served_of_moveChannel h fun _ hj hc => by subst hj; exact .write hc
  | enqueue j => exact served_of_enqueueFrom h
  | handle => exact served_of_handleNext h hwaiting

end Server

/-! ## §2. At rest, and on the way -/

namespace Dialogue

/-- All requests of a connection are answered, with the replies `written`, and nothing else has come in.
The connection is open unless it was `broken`. -/
inductive Resting (written : List String) (handled : List Handled) (broken : Prop) : Dialogue → Prop
  | opened : Resting written handled broken ⟨⟨[], false, .reading, written⟩, [], handled⟩
  | gone (why : broken) : Resting written handled broken ⟨⟨[], false, .closed, written⟩, [], handled⟩

/-- How far a request has come that was sent on such a connection. -/
inductive Exchange (k : Nat) (written : List String) (handled : List Handled) (name : String)
    (broken : Prop) : Dialogue → Prop
  | sent : Exchange k written handled name broken
      ⟨⟨Frame.frame name, false, .reading, written⟩, [], handled⟩
  | held : Exchange k written handled name broken
      ⟨⟨[], false, .holding name, written⟩, [], handled⟩
  | queued : Exchange k written handled name broken
      ⟨⟨[], false, .waiting, written⟩, [name], handled⟩
  | replying (reply : String) : Exchange k written handled name broken
      ⟨⟨[], false, .replying reply, written⟩, [], handled ++ [⟨k, name, .ok reply⟩]⟩
  | answered {reply : String} {d : Dialogue} (fits : Frame.Fits reply)
      (resting : d.Resting (written ++ [reply]) (handled ++ [⟨k, name, .ok reply⟩]) broken) :
      Exchange k written handled name broken d
  /-- The reply is too large to be written, and the connection is closed. -/
  | withheld {reply : String} (large : ¬ Frame.Fits reply) :
      Exchange k written handled name broken
        ⟨⟨[], false, .closed, written⟩, [], handled ++ [⟨k, name, .ok reply⟩]⟩
  /-- The connection was closed before anything was written. -/
  | dropped {unread : List UInt8} {after : List Handled} (why : broken) :
      Exchange k written handled name broken ⟨⟨unread, false, .closed, written⟩, [], after⟩

/-- There is no request without an answer on the connection: none is unread, held or in the queue, and no
answer is held back. -/
structure IsIdle (d : Dialogue) : Prop where
  unread : d.channel.unread = []
  held : d.channel.held = []
  queued : d.queued = []
  inFlight : d.channel.inFlight = []

variable {written : List String} {handled : List Handled} {name : String} {k : Nat}
  {broken broken' stopped : Prop} {d next : Dialogue} {event : ServerEvent}

/-- A connection at rest is so with any weaker reason to be closed. -/
theorem Resting.mono (h : d.Resting written handled broken) (himp : broken → broken') :
    d.Resting written handled broken' := by
  cases h with
  | opened => exact .opened
  | gone why => exact .gone (himp why)

/-- A request is as far on its way with any weaker reason to be dropped. -/
theorem Exchange.mono (h : d.Exchange k written handled name broken) (himp : broken → broken') :
    d.Exchange k written handled name broken' := by
  cases h with
  | sent => exact .sent
  | held => exact .held
  | queued => exact .queued
  | replying reply => exact .replying reply
  | answered fits resting => exact .answered fits (resting.mono himp)
  | withheld large => exact .withheld large
  | dropped why => exact .dropped (himp why)

theorem Resting.ended_eq (h : d.Resting written handled broken) : d.channel.ended = false := by
  cases h <;> rfl

theorem Resting.written_eq (h : d.Resting written handled broken) : d.channel.written = written := by
  cases h <;> rfl

theorem Resting.handled_eq (h : d.Resting written handled broken) : d.handled = handled := by
  cases h <;> rfl

/-- A connection at rest has no request without an answer. -/
theorem Resting.isIdle (h : d.Resting written handled broken) : d.IsIdle := by
  cases h <;> exact ⟨rfl, rfl, rfl, rfl⟩

/-- A connection at rest that is open needs no other reason. -/
theorem Resting.of_open (h : d.Resting written handled broken)
    (hopen : d.channel.phase = .closed → broken') : d.Resting written handled broken' := by
  cases h with
  | opened => exact .opened
  | gone => exact .gone (hopen rfl)

/-- A connection at rest that cannot be broken is open. -/
theorem Resting.eq_of_whole (h : d.Resting written handled broken) (hwhole : ¬ broken) :
    d = ⟨⟨[], false, .reading, written⟩, [], handled⟩ := by
  cases h with
  | opened => rfl
  | gone why => exact absurd why hwhole

theorem Resting.phase_ne_closed (h : d.Resting written handled broken) (hwhole : ¬ broken) :
    d.channel.phase ≠ .closed := by
  cases h with
  | opened => exact nofun
  | gone why => exact absurd why hwhole

/-- A request on its way has got its own reply, or nothing. -/
theorem Exchange.written_cases (h : d.Exchange k written handled name broken) :
    d.channel.written = written ∨ ∃ reply, Frame.Fits reply ∧
      d.Resting (written ++ [reply]) (handled ++ [⟨k, name, .ok reply⟩]) broken := by
  cases h with
  | answered fits resting => exact .inr ⟨_, fits, resting⟩
  | sent => exact .inl rfl
  | held => exact .inl rfl
  | queued => exact .inl rfl
  | replying reply => exact .inl rfl
  | withheld large => exact .inl rfl
  | dropped why => exact .inl rfl

/-- A request that is not on its way any more was handled, if nothing was lost, and its reply was written
unless it is too large. -/
theorem Exchange.of_isIdle (h : d.Exchange k written handled name broken) (hidle : d.IsIdle)
    (hwhole : ¬ broken) : ∃ reply, d.handled = handled ++ [⟨k, name, .ok reply⟩] ∧
      (Frame.Fits reply ∧
          d.Resting (written ++ [reply]) (handled ++ [⟨k, name, .ok reply⟩]) broken ∨
        ¬ Frame.Fits reply ∧ d.channel.written = written) := by
  cases h with
  | answered fits resting => exact ⟨_, resting.handled_eq, .inl ⟨fits, resting⟩⟩
  | withheld large => exact ⟨_, rfl, .inr ⟨large, rfl⟩⟩
  | dropped why => exact absurd why hwhole
  | sent => exact absurd hidle.unread (List.cons_ne_nil _ _)
  | held => exact absurd hidle.held (List.cons_ne_nil _ _)
  | queued => exact absurd hidle.queued (List.cons_ne_nil _ _)
  | replying reply => exact absurd hidle.inFlight (List.cons_ne_nil _ _)

/-- A closed connection with nothing in the queue stays as it is. -/
theorem Served.eq_of_closed (h : d.Served stopped k event next) (hclosed : d.channel.phase = .closed)
    (hqueued : d.queued = []) : next = d := by
  cases h with
  | idle => rfl
  | read read => simp [Server.readChannel, hclosed] at read
  | write write => simp [Server.writeChannel, hclosed] at write
  | lose lose => simp [Server.loseChannel, hclosed] at lose
  | enqueue holding => cases hclosed.symm.trans holding
  | refuse holding => cases hclosed.symm.trans holding
  | reply reply oldest => cases hqueued.symm.trans oldest
  | fail cause oldest => cases hqueued.symm.trans oldest
  | abandon =>
    rw [Channel.abandon_of_ne fun hwaiting => nomatch hclosed.symm.trans hwaiting]
    show (⟨d.channel, [], d.handled⟩ : Dialogue) = ⟨d.channel, d.queued, d.handled⟩
    rw [hqueued]

/-- A connection at rest stays so, and only a loss closes it. -/
theorem Resting.step (h : d.Resting written handled broken) (hserved : d.Served stopped k event next)
    (hlost : event = .lose k → broken) : next.Resting written handled broken := by
  cases h with
  | opened =>
    cases hserved with
    | idle => exact .opened
    | read read => simp [Server.readChannel, Frame.isReady, Frame.announced?] at read
    | write write => simp [Server.writeChannel] at write
    | lose lose =>
      cases lose
      exact .gone (hlost rfl)
    | enqueue holding => cases holding
    | refuse holding => cases holding
    | reply reply oldest => cases oldest
    | fail cause oldest => cases oldest
    | abandon => exact .opened
  | gone why =>
    rw [hserved.eq_of_closed rfl rfl]
    exact .gone why

/-- A reader takes the only frame that is there, as a request to hold. -/
theorem readChannel_frame {name : String} (h : Frame.Fits name) (written : List String) :
    Server.readChannel ⟨Frame.frame name, false, .reading, written⟩
      = some ⟨[], false, .holding name, written⟩ := by
  have hannounced := Frame.announced?_frame_append h []
  have hread : Frame.read (Frame.frame name) = (.ok (some name), []) :=
    Frame.read_eq_some_iff.mpr ⟨h, (List.append_nil _).symm⟩
  rw [List.append_nil, List.append_nil] at hannounced
  have hready : Frame.isReady (Frame.frame name) = true := by
    unfold Frame.isReady
    rw [hannounced]
    simp [length_utf8]
  unfold Server.readChannel
  rw [if_pos ⟨rfl, .inr hready⟩]
  simp only [hread]

/-- A request that was sent goes on to the next stage, and only a loss or a server that stops keeps it
from its reply. -/
theorem Exchange.step (h : d.Exchange k written handled name broken) (hname : Frame.Fits name)
    (hserved : d.Served stopped k event next) (hlost : event = .lose k → broken)
    (hstopped : stopped → broken) : next.Exchange k written handled name broken := by
  -- one stage after the other; in each there is one event that brings the request on
  cases h with
  | sent =>
    cases hserved with
    | idle => exact .sent
    | read read =>
      rw [readChannel_frame hname] at read
      cases read
      exact .held
    | write write => simp [Server.writeChannel] at write
    | lose lose =>
      cases lose
      exact .dropped (hlost rfl)
    | enqueue holding => cases holding
    | refuse holding => cases holding
    | reply reply oldest => cases oldest
    | fail cause oldest => cases oldest
    | abandon => exact .sent
  | held =>
    cases hserved with
    | idle => exact .held
    | read read => simp [Server.readChannel] at read
    | write write => simp [Server.writeChannel] at write
    | lose lose => simp [Server.loseChannel] at lose
    | enqueue holding =>
      cases holding
      exact .queued
    | refuse holding why =>
      exact .dropped (hstopped why)
    | reply reply oldest => cases oldest
    | fail cause oldest => cases oldest
    | abandon => exact .held
  | queued =>
    cases hserved with
    | idle => exact .queued
    | read read => simp [Server.readChannel] at read
    | write write => simp [Server.writeChannel] at write
    | lose lose => simp [Server.loseChannel] at lose
    | enqueue holding => cases holding
    | refuse holding => cases holding
    | reply reply oldest =>
      cases oldest
      exact .replying reply
    | fail cause oldest why =>
      cases oldest
      exact .dropped (hstopped why)
    | abandon why =>
      exact .dropped (hstopped why)
  | replying reply =>
    cases hserved with
    | idle => exact .replying reply
    | read read => simp [Server.readChannel] at read
    | write write =>
      unfold Server.writeChannel at write
      split at write
      case h_2 hphase => exact absurd rfl (hphase reply)
      case h_1 reply' hphase =>
        cases hphase
        -- whether the reply fits decides if it is written or the connection is closed
        split at write
        case isTrue hlarge =>
          cases write
          exact .withheld (Nat.not_le_of_lt hlarge)
        case isFalse hfits =>
          cases write
          exact .answered (Nat.le_of_not_lt hfits) .opened
    | lose lose =>
      cases lose
      exact .dropped (hlost rfl)
    | enqueue holding => cases holding
    | refuse holding => cases holding
    | reply reply oldest => cases oldest
    | fail cause oldest => cases oldest
    | abandon => exact .replying reply
  | answered fits resting => exact .answered fits (resting.step hserved hlost)
  | withheld large =>
    rw [hserved.eq_of_closed rfl rfl]
    exact .withheld large
  | dropped why =>
    rw [hserved.eq_of_closed rfl rfl]
    exact .dropped why

end Dialogue

/-! ## §3. Everything that can happen -/

namespace Server

variable {handler : Handler σ} {server next : Server σ} {k : Nat}

/-- Requests and replies are in order on all connections, for what can have come in on them. -/
def IsInOrder (server : Server σ) : Prop :=
  ∃ past, ∀ k, (server.dialogue k).Conforms (streamOf k past)

theorem advance_cons (server : Server σ) (event : ServerEvent) (events : List ServerEvent) :
    server.advance handler (event :: events)
      = ((server.step handler event).getD server).advance handler events := rfl

/-- Events are done one after the other. -/
theorem advance_append (server : Server σ) (events more : List ServerEvent) :
    server.advance handler (events ++ more)
      = (server.advance handler events).advance handler more := List.foldl_append

/-- Doing one event that can happen is a step. -/
theorem advance_of_step {event : ServerEvent} (h : server.step handler event = some next) :
    server.advance handler [event] = next := by
  rw [advance_cons, h]
  rfl

namespace IsInOrder

theorem start (state : σ) : IsInOrder (Server.start state) :=
  ⟨[], fun _ => Dialogue.Conforms.start⟩

/-- A reader waits while a request of its connection is in the queue. -/
theorem waiting_of_queued (h : IsInOrder server) (k : Nat)
    (hqueued : (server.dialogue k).queued ≠ []) :
    (server.dialogue k).channel.phase = .waiting := by
  obtain ⟨past, hconforms⟩ := h
  obtain ⟨request, queued, hcons⟩ := List.exists_cons_of_ne_nil hqueued
  exact ((hconforms k).of_queued hcons).1

/-- All replies that were written fit in a frame. -/
theorem written_fits (h : IsInOrder server) (k : Nat) :
    ∀ reply ∈ (server.dialogue k).channel.written, Frame.Fits reply := by
  obtain ⟨past, hconforms⟩ := h
  exact (hconforms k).written_fits

/-- A step keeps requests and replies in order. -/
theorem step (h : IsInOrder server) {event : ServerEvent}
    (hstep : server.step handler event = some next) : IsInOrder next := by
  have hdialogue := (transition_of_step hstep).dialogue h.waiting_of_queued
  obtain ⟨past, hconforms⟩ := h
  refine ⟨past ++ [event], fun k => ?_⟩
  rw [streamOf_append_singleton]
  exact (hconforms k).step (hdialogue k)

/-- What every step keeps, of the events that there are, advancing keeps. -/
theorem advance_induction {P : Server σ → Prop} {events : List ServerEvent}
    (hkeep : ∀ {server event next}, event ∈ events → IsInOrder server → P server →
      server.step handler event = some next → P next)
    (h : IsInOrder server) (hP : P server) :
    IsInOrder (server.advance handler events) ∧ P (server.advance handler events) := by
  induction events generalizing server with
  | nil => exact ⟨h, hP⟩
  | cons event events ih =>
    rw [advance_cons]
    have hkeep' : ∀ {server event next}, event ∈ events → IsInOrder server → P server →
        server.step handler event = some next → P next :=
      fun hmem => hkeep (List.mem_cons_of_mem _ hmem)
    -- an event that cannot happen is skipped
    cases hstep : server.step handler event with
    | none => exact ih hkeep' h hP
    | some next => exact ih hkeep' (h.step hstep) (hkeep List.mem_cons_self h hP hstep)

/-- Events keep requests and replies in order, whether or not they can happen. -/
theorem advance (h : IsInOrder server) (events : List ServerEvent) :
    IsInOrder (server.advance handler events) :=
  (advance_induction (P := fun _ => True) (fun _ _ _ _ => trivial) h trivial).1

end IsInOrder

/-- What never goes away from a server: its connections, and its failure. -/
structure Extends (before after : Server σ) : Prop where
  channels : before.channels.length ≤ after.channels.length
  failure : before.failure ≠ none → after.failure ≠ none

namespace Extends

variable {before after : Server σ}

theorem refl (server : Server σ) : Extends server server where
  channels := Nat.le_refl _
  failure := id

theorem trans (h : Extends before server) (h' : Extends server after) : Extends before after where
  channels := Nat.le_trans h.channels h'.channels
  failure := h'.failure ∘ h.failure

theorem of_step {event : ServerEvent} (h : server.step handler event = some next) :
    Extends server next := by
  have htransition := transition_of_step h
  have hfailure : server.failure ≠ none → next.failure ≠ none := fun hstopped => by
    obtain ⟨cause, hcause⟩ := Option.ne_none_iff_exists'.mp hstopped
    rw [(htransition.of_failure hcause).1]
    exact hstopped
  cases htransition with
  | accept => exact ⟨by simp, hfailure⟩
  | move present move others => exact ⟨by simp [change], hfailure⟩
  | enqueue present holding running => exact ⟨by simp [change], hfailure⟩
  | reply running oldest outcome => exact ⟨by simp [change], hfailure⟩
  | fail running oldest outcome => exact ⟨by simp, hfailure⟩

theorem advance (server : Server σ) (events : List ServerEvent) :
    Extends server (server.advance handler events) := by
  induction events generalizing server with
  | nil => exact refl server
  | cons event events ih =>
    rw [advance_cons]
    cases hstep : server.step handler event with
    | none => exact ih server
    | some next => exact (of_step hstep).trans (ih next)

end Extends

/-- A step handles one request, as the handler does from the state before, or none. -/
theorem handled_of_step {event : ServerEvent} (h : server.step handler event = some next) :
    (next.journal = server.journal ∧ next.state = server.state) ∨
      ∃ entry, next.journal = server.journal ++ [entry] ∧
        (handler entry.request).outcome server.state = (entry.outcome, next.state) := by
  cases transition_of_step h with
  | accept => exact .inl ⟨rfl, rfl⟩
  | move present move others => exact .inl ⟨rfl, rfl⟩
  | enqueue present holding running => exact .inl ⟨rfl, rfl⟩
  | reply running oldest outcome => exact .inr ⟨_, rfl, outcome⟩
  | fail running oldest outcome => exact .inr ⟨_, rfl, outcome⟩

/-- What a server can become by events. -/
def Becomes (handler : Handler σ) (before after : Server σ) : Prop :=
  ∃ events, after = before.advance handler events

namespace Becomes

variable {before after : Server σ}

theorem refl (server : Server σ) : Becomes handler server server := ⟨[], rfl⟩

theorem advance (server : Server σ) (events : List ServerEvent) :
    Becomes handler server (server.advance handler events) := ⟨events, rfl⟩

theorem trans (h : Becomes handler before server) (h' : Becomes handler server after) :
    Becomes handler before after := by
  obtain ⟨events, rfl⟩ := h
  obtain ⟨more, rfl⟩ := h'
  exact ⟨events ++ more, (advance_append before events more).symm⟩

theorem isInOrder (h : Becomes handler before after) (horder : IsInOrder before) :
    IsInOrder after := by
  obtain ⟨events, rfl⟩ := h
  exact horder.advance events

theorem grown (h : Becomes handler before after) : Extends before after := by
  obtain ⟨events, rfl⟩ := h
  exact .advance before events

/-- What has been handled since is what the handler says from the state before. -/
theorem exists_entries (h : Becomes handler before after) :
    ∃ entries, after.journal = before.journal ++ entries ∧
      handler.replay before.state (entries.map Handled.request)
        = (entries.map Handled.outcome, after.state) := by
  obtain ⟨events, rfl⟩ := h
  -- the first step of the events handles the first entry, so the state before is general
  induction events generalizing before with
  | nil => exact ⟨[], (List.append_nil _).symm, rfl⟩
  | cons event events ih =>
    rw [advance_cons]
    cases hstep : before.step handler event with
    | none => exact ih
    | some next =>
      obtain ⟨entries, hjournal, hreplay⟩ := @ih next
      rw [Option.getD_some, hjournal]
      rcases handled_of_step hstep with ⟨hsame, hstate⟩ | ⟨entry, hentry, houtcome⟩
      · rw [hsame, ← hstate]
        exact ⟨entries, rfl, hreplay⟩
      · rw [hentry, List.append_assoc]
        refine ⟨entry :: entries, rfl, ?_⟩
        show (((handler entry.request).outcome before.state).1 ::
            (handler.replay ((handler entry.request).outcome before.state).2 _).1,
          (handler.replay ((handler entry.request).outcome before.state).2 _).2) = _
        rw [houtcome, hreplay]
        rfl

/-- What has been handled of one connection since is among what has been handled since. -/
theorem handledOf_entries {entries own : List Handled} (h : after.journal = before.journal ++ entries)
    (hown : (after.dialogue k).handled = (before.dialogue k).handled ++ own) :
    handledOf entries k = own := by
  change handledOf after.journal k = handledOf before.journal k ++ own at hown
  rw [h] at hown
  unfold handledOf at hown ⊢
  rw [List.filter_append] at hown
  exact List.append_cancel_left hown

end Becomes

namespace IsInOrder

variable {written : List String} {handled : List Handled} {name : String} {lost : Prop}

/-- What is done to a connection while its peer waits. -/
theorem served (h : IsInOrder server) {event : ServerEvent}
    {events : List ServerEvent} (hmem : event ∈ events.filter fun event => !event.isBy k)
    (hstep : server.step handler event = some next) :
    event ∈ events ∧ (server.dialogue k).Served (next.failure ≠ none) k event (next.dialogue k) := by
  obtain ⟨hevent, hpeer⟩ := List.mem_filter.mp hmem
  exact ⟨hevent, served_of_step hstep (by simpa using hpeer)
    (h.waiting_of_queued k)⟩

/-- A connection at rest stays at rest while its peer waits, and only a loss closes it. -/
theorem attend_resting (h : IsInOrder server) (handler : Handler σ)
    (hresting : (server.dialogue k).Resting written handled lost) (events : List ServerEvent)
    (hlost : .lose k ∈ events → lost) :
    ((server.attend handler k events).dialogue k).Resting written handled lost := by
  refine (advance_induction (P := fun server => (server.dialogue k).Resting written handled lost)
    (fun hmem horder hresting hstep => ?_) h hresting).2
  obtain ⟨hevent, hserved⟩ := horder.served hmem hstep
  exact hresting.step hserved fun hlose => hlost (hlose ▸ hevent)

/-- A request that was sent is somewhere on its way while its peer waits, and only a loss or the end of the
server keeps it from its reply. -/
theorem attend_exchange (h : IsInOrder server) (handler : Handler σ) (hname : Frame.Fits name)
    (hexchange : (server.dialogue k).Exchange k written handled name lost)
    (events : List ServerEvent) (hlost : .lose k ∈ events → lost) :
    ((server.attend handler k events).dialogue k).Exchange k written handled name
      (lost ∨ (server.attend handler k events).failure ≠ none) := by
  refine (advance_induction
    (P := fun server => (server.dialogue k).Exchange k written handled name
      (lost ∨ server.failure ≠ none))
    (fun hmem horder hexchange hstep => ?_) h (hexchange.mono .inl)).2
  obtain ⟨hevent, hserved⟩ := horder.served hmem hstep
  -- a failure of the server lasts, so what was broken before the step is broken after it
  have hlasts := hexchange.mono (Or.imp_right (Extends.of_step hstep).failure)
  exact hlasts.step hname hserved (fun hlose => .inl (hlost (hlose ▸ hevent))) .inr

/-! ## §4. What the peer does -/

/-- Nothing has happened to a connection that has not been accepted. -/
theorem dialogue_of_absent (h : IsInOrder server)
    (habsent : server.channels.length ≤ k) : server.dialogue k = ⟨.fresh, [], []⟩ := by
  obtain ⟨past, hconforms⟩ := h
  -- an absent connection counts as a fresh one, and for a fresh one nothing was asked
  have hfresh : (server.dialogue k).channel = .fresh := by
    show server.channels[k]?.getD .fresh = .fresh
    rw [List.getElem?_eq_none habsent]
    rfl
  have hqueued : (server.dialogue k).queued = [] :=
    (hconforms k).queued_eq_nil (by rw [hfresh]; exact nofun)
  have hhandled : (server.dialogue k).handled = [] := by
    obtain ⟨last, houtcomes, -, hlast⟩ := (hconforms k).outcomes_eq
    rw [hfresh] at houtcomes hlast
    rw [hlast nofun] at houtcomes
    exact List.map_eq_nil_iff.mp houtcomes
  show (⟨(server.dialogue k).channel, (server.dialogue k).queued, (server.dialogue k).handled⟩ :
    Dialogue) = _
  rw [hfresh, hqueued, hhandled]

/-- A new connection is at rest. -/
theorem accept_resting (h : IsInOrder server) (handler : Handler σ) :
    ((server.advance handler [.accept]).dialogue server.channels.length).Resting [] [] False := by
  have hdialogue : (server.advance handler [.accept]).dialogue server.channels.length
      = server.dialogue server.channels.length := by
    show (⟨channelOf (server.channels ++ [.fresh]) _, _, _⟩ : Dialogue) = _
    rw [channelOf_append_fresh]
    rfl
  rw [hdialogue, h.dialogue_of_absent (Nat.le_refl _)]
  exact .opened

end IsInOrder

theorem present_of_lt (h : k < server.channels.length) :
    server.channels[k]? = some (server.dialogue k).channel := by
  rw [List.getElem?_eq_getElem h]
  exact congrArg some (channelOf_of_present (List.getElem?_eq_getElem h)).symm

/-- A request that comes in on a connection at rest is on its way, unless the connection is closed. -/
theorem arrive_exchange {written : List String} {handled : List Handled} {lost : Prop}
    (hresting : (server.dialogue k).Resting written handled lost)
    (hpresent : k < server.channels.length) (handler : Handler σ) (name : String) :
    ((server.advance handler [.arrive k (Frame.frame name)]).dialogue k).Exchange k written handled
      name lost := by
  have hstep : server.step handler (.arrive k (Frame.frame name)) = some (server.change k fun _ =>
      { (server.dialogue k).channel with
        unread := (server.dialogue k).channel.unread ++ Frame.frame name }) := by
    show server.moveChannel k _ = _
    unfold moveChannel
    rw [present_of_lt hpresent, Option.bind_some, if_neg (by rw [hresting.ended_eq]; exact nofun)]
    rfl
  rw [advance_of_step hstep, dialogue_change_self (present_of_lt hpresent)]
  generalize server.dialogue k = d at hresting
  cases hresting with
  | opened => exact .sent
  | gone why => exact .dropped why

theorem ChangesOnly.refl (k : Nat) (server : Server σ) : ChangesOnly k server server :=
  ⟨rfl, rfl, rfl, rfl, fun _ _ => rfl⟩

theorem ChangesOnly.handled_eq {before after : Server σ} (h : ChangesOnly k before after) (j : Nat) :
    (after.dialogue j).handled = (before.dialogue j).handled := by
  show handledOf after.journal j = handledOf before.journal j
  rw [h.journal_eq]

/-- A stream that the peer ends is ended, and nothing else has changed. -/
theorem advance_finish (handler : Handler σ) (server : Server σ) (k : Nat) :
    ChangesOnly k server (server.advance handler [.finish k]) ∧
      (((server.advance handler [.finish k]).dialogue k).IsIdle ↔ (server.dialogue k).IsIdle) := by
  cases hchannel : server.channels[k]? with
  | none =>
    have hstep : server.step handler (.finish k) = none := by
      show server.moveChannel k _ = none
      unfold moveChannel
      rw [hchannel]
      rfl
    rw [advance_cons, hstep]
    exact ⟨.refl k server, Iff.rfl⟩
  | some c =>
    have hstep : server.step handler (.finish k)
        = some (server.change k fun _ => { (server.dialogue k).channel with ended := true }) := by
      show server.moveChannel k _ = _
      unfold moveChannel
      rw [hchannel, ← channelOf_of_present hchannel]
      rfl
    rw [advance_of_step hstep, dialogue_change_self hchannel]
    exact ⟨changesOnly_change _ _ _, fun h => ⟨h.unread, h.held, h.queued, h.inFlight⟩,
      fun h => ⟨h.unread, h.held, h.queued, h.inFlight⟩⟩

end Server

end CsvQuery

/-
  CsvQuery.Proofs.Wire.Serve — a server answers each connection with its own replies, in order.

  Any order of events is a run, so what holds of all runs holds under any interleaving of connections.
  A step of the server is, for each connection, one of the few steps of a dialogue, and the handler sees
  the requests one after the other, in the order of the journal.

  Main results:
    • `transition_of_step` — all that a step can do
    • `Transition.dialogue` — what a step is to one connection
    • `IsOrderly.step`, `IsOrderly.run` — the invariant of all runs
    • `IsAftermath.run` — after a failure of the handler
    • `connections_answered_in_order` — requests, replies, the queue, and the end of a connection and of
      the server
-/
import CsvQuery.Proofs.Wire.Dialogue
import CsvQuery.Wire.Remote

namespace CsvQuery

variable {σ : Type}

/-! ## §1. What is observed -/

/-- The outcomes of a handler that gets requests one after the other, and the state that it is left in. -/
def Handler.replay (handler : Handler σ) (state : σ) : List String → List (Except Error String) × σ
  | [] => ([], state)
  | request :: rest =>
    let (outcome, next) := (handler request).outcome state
    let (outcomes, last) := Handler.replay handler next rest
    (outcome :: outcomes, last)

/-- The last request is put to the handler as the ones before it have left it. -/
theorem Handler.replay_append_singleton (handler : Handler σ) (state : σ) (requests : List String)
    (request : String) :
    handler.replay state (requests ++ [request])
      = ((handler.replay state requests).1
          ++ [((handler request).outcome (handler.replay state requests).2).1],
        ((handler request).outcome (handler.replay state requests).2).2) := by
  induction requests generalizing state with
  | nil => rfl
  | cons first requests ih =>
    show ((_ :: (handler.replay _ (requests ++ [request])).1),
      (handler.replay _ (requests ++ [request])).2) = _
    rw [ih]
    rfl

/-- The bytes that an event brings in on a connection. -/
def ServerEvent.bytesOf (k : Nat) : ServerEvent → List UInt8
  | .arrive channel bytes => if channel = k then bytes else []
  | _ => []

namespace Server

/-- All bytes that come in on a connection. -/
def streamOf (k : Nat) (events : List ServerEvent) : List UInt8 := events.flatMap (·.bytesOf k)

theorem streamOf_append_singleton (k : Nat) (events : List ServerEvent) (event : ServerEvent) :
    streamOf k (events ++ [event]) = streamOf k events ++ event.bytesOf k := by
  unfold streamOf
  rw [List.flatMap_append, List.flatMap_singleton]

/-- A connection by its number, which is as if fresh before it is accepted. -/
def channelOf (channels : List Channel) (k : Nat) : Channel := channels[k]?.getD .fresh

/-- The requests of a connection in a queue. -/
def queuedOf (queue : List (Nat × String)) (k : Nat) : List String :=
  (queue.filter (·.1 = k)).map Prod.snd

/-- The requests of a connection in a journal. -/
def handledOf (journal : List Handled) (k : Nat) : List Handled := journal.filter (·.channel = k)

/-- What a server and a connection have to do with each other. -/
def dialogue (server : Server σ) (k : Nat) : Dialogue where
  channel := channelOf server.channels k
  queued := queuedOf server.queue k
  handled := handledOf server.journal k

section Lists

variable {channels : List Channel} {j k : Nat} {c : Channel}

theorem channelOf_of_present (h : channels[k]? = some c) : channelOf channels k = c := by
  unfold channelOf
  rw [h]
  rfl

/-- Only to an accepted connection anything has happened. -/
theorem present_of_ne_fresh (h : channelOf channels k ≠ .fresh) :
    channels[k]? = some (channelOf channels k) := by
  cases hchannel : channels[k]? with
  | some c => rw [channelOf_of_present hchannel]
  | none =>
    refine absurd ?_ h
    unfold channelOf
    rw [hchannel]
    rfl

/-- Only an accepted connection is done with reading. -/
theorem present_of_phase_ne (h : (channelOf channels k).phase ≠ .reading) :
    channels[k]? = some (channelOf channels k) :=
  present_of_ne_fresh fun hfresh => h (by rw [hfresh]; rfl)

/-- Accepting a connection changes none, since it was as if fresh before. -/
theorem channelOf_append_fresh (channels : List Channel) (k : Nat) :
    channelOf (channels ++ [.fresh]) k = channelOf channels k := by
  unfold channelOf
  rw [List.getElem?_append]
  split
  case isTrue => rfl
  case isFalse hk =>
    rw [List.getElem?_eq_none (Nat.le_of_not_lt hk)]
    cases k - channels.length <;> rfl

theorem channelOf_modify_self (h : channels[k]? = some c) (f : Channel → Channel) :
    channelOf (channels.modify k f) k = f c := by
  unfold channelOf
  rw [List.getElem?_modify, h]
  simp

theorem channelOf_modify_of_ne (h : k ≠ j) (channels : List Channel) (f : Channel → Channel) :
    channelOf (channels.modify k f) j = channelOf channels j := by
  unfold channelOf
  rw [List.getElem?_modify]
  simp [h]

theorem channelOf_map_abandon (channels : List Channel) (k : Nat) :
    channelOf (channels.map Channel.abandon) k = (channelOf channels k).abandon := by
  unfold channelOf
  rw [List.getElem?_map]
  cases channels[k]? <;> rfl

theorem modify_of_present (h : channels[k]? = some c) (f : Channel → Channel) :
    channels.modify k f = channels.modify k fun _ => f c := by
  refine List.ext_getElem? fun j => ?_
  rw [List.getElem?_modify, List.getElem?_modify]
  by_cases hj : k = j
  · subst hj
    rw [h]
    rfl
  · simp only [if_neg hj]

theorem queuedOf_append (queue more : List (Nat × String)) (k : Nat) :
    queuedOf (queue ++ more) k = queuedOf queue k ++ queuedOf more k := by
  unfold queuedOf
  rw [List.filter_append, List.map_append]

theorem queuedOf_cons_self (k : Nat) (request : String) (queue : List (Nat × String)) :
    queuedOf ((k, request) :: queue) k = request :: queuedOf queue k := by
  simp [queuedOf]

theorem queuedOf_cons_of_ne (h : k ≠ j) (request : String) (queue : List (Nat × String)) :
    queuedOf ((k, request) :: queue) j = queuedOf queue j := by
  simp [queuedOf, h]

theorem handledOf_append_self (journal : List Handled) (k : Nat) (request : String)
    (outcome : Except Error String) :
    handledOf (journal ++ [⟨k, request, outcome⟩]) k
      = handledOf journal k ++ [⟨k, request, outcome⟩] := by
  simp [handledOf]

/-- An entry of one connection is none of any other. -/
theorem handledOf_append_of_ne (h : k ≠ j) (journal : List Handled) (request : String)
    (outcome : Except Error String) :
    handledOf (journal ++ [⟨k, request, outcome⟩]) j = handledOf journal j := by
  simp [handledOf, h]

end Lists

/-! ## §2. What a step can do -/

/-- All that can become of a server by an event. -/
inductive Transition (handler : Handler σ) (server : Server σ) : ServerEvent → Server σ → Prop
  | accept : Transition handler server .accept
      { server with channels := server.channels ++ [.fresh] }
  | move {event : ServerEvent} {k : Nat} {c next : Channel}
      (present : server.channels[k]? = some c) (move : c.Move (event.bytesOf k) next)
      (others : ∀ j, k ≠ j → event.bytesOf j = []) :
      Transition handler server event (server.change k fun _ => next)
  | enqueue {k : Nat} {c : Channel} {request : String} (present : server.channels[k]? = some c)
      (holding : c.phase = .holding request) (running : server.failure = none) :
      Transition handler server (.enqueue k)
        ({ server with queue := server.queue ++ [(k, request)] }.change k (·.become .waiting))
  | reply {k : Nat} {request reply : String} {queue : List (Nat × String)} {state : σ}
      (running : server.failure = none) (oldest : server.queue = (k, request) :: queue)
      (outcome : (handler request).outcome server.state = (.ok reply, state)) :
      Transition handler server .handle
        (({ server with
            state, queue, journal := server.journal ++ [⟨k, request, .ok reply⟩] } : Server σ).change k
          (·.become (.replying reply)))
  | fail {k : Nat} {request : String} {cause : Error} {queue : List (Nat × String)} {state : σ}
      (running : server.failure = none) (oldest : server.queue = (k, request) :: queue)
      (outcome : (handler request).outcome server.state = (.error cause, state)) :
      Transition handler server .handle
        { state, channels := server.channels.map Channel.abandon, queue := [],
          journal := server.journal ++ [⟨k, request, .error cause⟩], failure := some cause }

/-- A reader takes a frame off the stream or closes its connection. -/
theorem move_of_readChannel {c next : Channel} (h : readChannel c = some next) :
    c.Move [] next := by
  unfold readChannel at h
  split at h
  case isFalse => cases h
  case isTrue hready =>
    split at h
    case h_1 request rest hread =>
      cases h
      exact .take hready.1 hread
    case h_2 =>
      cases h
      exact .close _ fun hwaiting => nomatch hready.1.symm.trans hwaiting

/-- A writer sends the reply that it holds or closes its connection. -/
theorem move_of_writeChannel {c next : Channel} (h : writeChannel c = some next) :
    c.Move [] next := by
  unfold writeChannel at h
  split at h
  case h_2 => cases h
  case h_1 reply hphase =>
    split at h
    case isTrue =>
      cases h
      exact .close c.unread fun hwaiting => nomatch hphase.symm.trans hwaiting
    case isFalse hfits =>
      cases h
      exact .write hphase (Nat.le_of_not_lt hfits)

/-- A connection that is lost is closed, which does not happen to one that waits. -/
theorem move_of_loseChannel {c next : Channel} (h : loseChannel c = some next) :
    c.Move [] next := by
  unfold loseChannel at h
  split at h
  case h_1 hphase =>
    cases h
    exact .close c.unread fun hwaiting => nomatch hphase.symm.trans hwaiting
  case h_2 hphase =>
    cases h
    exact .close c.unread fun hwaiting => nomatch hphase.symm.trans hwaiting
  case h_3 => cases h

variable {handler : Handler σ} {server next : Server σ}

/-- Where all that is done concerns one connection, the server makes a move of it. -/
theorem transition_of_moveChannel {event : ServerEvent} {k : Nat} {move : Channel → Option Channel}
    (hmove : ∀ c c', move c = some c' → c.Move (event.bytesOf k) c')
    (hothers : ∀ j, k ≠ j → event.bytesOf j = []) (h : server.moveChannel k move = some next) :
    Transition handler server event next := by
  obtain ⟨c', hbind, rfl⟩ := Option.map_eq_some_iff.mp h
  obtain ⟨c, hpresent, hc⟩ := Option.bind_eq_some_iff.mp hbind
  exact .move hpresent (hmove c c' hc) hothers

/-- A step does nothing but what is listed. -/
theorem transition_of_step {event : ServerEvent} (h : server.step handler event = some next) :
    Transition handler server event next := by
  cases event with
  | accept =>
    cases h
    exact .accept
  | arrive k bytes =>
    refine transition_of_moveChannel (fun c c' hc => ?_) (fun j hj => if_neg hj) h
    split at hc
    case isTrue => cases hc
    case isFalse =>
      cases hc
      show c.Move (if k = k then bytes else []) _
      rw [if_pos rfl]
      exact .arrive c bytes
  | finish k =>
    refine transition_of_moveChannel (fun c c' hc => ?_) (fun _ _ => rfl) h
    cases hc
    exact .finish c
  | lose k => exact transition_of_moveChannel (fun _ _ => move_of_loseChannel) (fun _ _ => rfl) h
  | read k => exact transition_of_moveChannel (fun _ _ => move_of_readChannel) (fun _ _ => rfl) h
  | write k => exact transition_of_moveChannel (fun _ _ => move_of_writeChannel) (fun _ _ => rfl) h
  | enqueue k =>
    change server.enqueueFrom k = some next at h
    unfold enqueueFrom at h
    split at h
    case h_2 => cases h
    case h_1 c hpresent =>
      split at h
      case h_1 request hphase hrunning =>
        cases h
        exact .enqueue hpresent hphase hrunning
      case h_2 request cause hphase hstopped =>
        cases h
        unfold change
        rw [modify_of_present hpresent]
        exact .move hpresent (.close c.unread fun hwaiting => nomatch hphase.symm.trans hwaiting)
          fun _ _ => rfl
      case h_3 => cases h
  | handle =>
    change server.handleNext handler = some next at h
    unfold handleNext at h
    split at h
    case h_2 => cases h
    case h_1 k request queue hrunning hqueue =>
      cases houtcome : (handler request).outcome server.state with
      | mk outcome state =>
        rw [houtcome] at h
        cases outcome with
        | ok reply =>
          cases h
          exact .reply hrunning hqueue houtcome
        | error cause =>
          cases h
          exact .fail hrunning hqueue houtcome

/-- The oldest request in the queue is the oldest one of its connection. -/
theorem queued_of_oldest {k : Nat} {request : String} {queue : List (Nat × String)}
    (oldest : server.queue = (k, request) :: queue) :
    (server.dialogue k).queued = request :: queuedOf queue k := by
  show queuedOf server.queue k = _
  rw [oldest, queuedOf_cons_self]

/-- A step is one of the steps of a dialogue to each connection, if only readers that wait have a request
in the queue. -/
theorem Transition.dialogue {event : ServerEvent} (h : Transition handler server event next)
    (hwaiting : ∀ j, (server.dialogue j).queued ≠ [] → (server.dialogue j).channel.phase = .waiting)
    (j : Nat) : (server.dialogue j).Step (event.bytesOf j) (next.dialogue j) := by
  cases h with
  | accept =>
    show (server.dialogue j).Step [] ⟨channelOf (server.channels ++ [.fresh]) j, _, _⟩
    rw [channelOf_append_fresh]
    exact .idle _
  | @move _ k c c' present move others =>
    show (server.dialogue j).Step _ ⟨channelOf (server.channels.modify k _) j, _, _⟩
    by_cases hj : k = j
    · subst hj
      rw [channelOf_modify_self present]
      rw [← channelOf_of_present present] at move
      exact .move move
    · rw [channelOf_modify_of_ne hj, others j hj]
      exact .idle _
  | @enqueue k c request present holding running =>
    show (server.dialogue j).Step []
      ⟨channelOf (server.channels.modify k _) j, queuedOf (server.queue ++ [(k, request)]) j, _⟩
    rw [queuedOf_append]
    by_cases hj : k = j
    · subst hj
      rw [channelOf_modify_self present, queuedOf_cons_self]
      rw [← channelOf_of_present present] at holding ⊢
      exact .enqueue holding
    · rw [channelOf_modify_of_ne hj, queuedOf_cons_of_ne hj]
      show (server.dialogue j).Step [] ⟨_, queuedOf server.queue j ++ [], _⟩
      rw [List.append_nil]
      exact .idle _
  | @reply k request reply queue state running oldest outcome =>
    show (server.dialogue j).Step []
      ⟨channelOf (server.channels.modify k _) j, queuedOf queue j, handledOf (_ ++ [_]) j⟩
    by_cases hj : k = j
    · subst hj
      -- a reader that waits is there, so its connection does get the reply
      have hqueued := queued_of_oldest oldest
      have hphase : (channelOf server.channels k).phase = .waiting :=
        hwaiting k (by rw [hqueued]; exact List.cons_ne_nil _ _)
      have hpresent := present_of_phase_ne fun hreading => nomatch hphase.symm.trans hreading
      rw [channelOf_modify_self hpresent, handledOf_append_self]
      exact .reply k reply hqueued
    · have hqueued : queuedOf queue j = queuedOf server.queue j := by
        rw [oldest, queuedOf_cons_of_ne hj]
      rw [channelOf_modify_of_ne hj, handledOf_append_of_ne hj, hqueued]
      exact .idle _
  | @fail k request cause queue state running oldest outcome =>
    show (server.dialogue j).Step []
      ⟨channelOf (server.channels.map Channel.abandon) j, [], handledOf (_ ++ [_]) j⟩
    rw [channelOf_map_abandon]
    by_cases hj : k = j
    · subst hj
      rw [handledOf_append_self]
      exact .fail k cause (queued_of_oldest oldest)
    · rw [handledOf_append_of_ne hj]
      exact .abandon _

/-! ## §3. The invariant of all runs -/

/-- Every connection is in order, the journal is what the handler was asked and said, and the handler has
failed at most once, at the last request that it got. -/
structure IsOrderly (handler : Handler σ) (initial : σ) (past : List ServerEvent)
    (server : Server σ) : Prop where
  conforms : ∀ k, (server.dialogue k).Conforms (streamOf k past)
  replay_eq : handler.replay initial (server.journal.map Handled.request)
    = (server.journal.map Handled.outcome, server.state)
  answered : server.failure = none → ∀ entry ∈ server.journal, ∃ reply, entry.outcome = .ok reply
  stopped : ∀ cause, server.failure = some cause → server.queue = [] ∧
    ∃ earlier entry, server.journal = earlier ++ [entry] ∧ entry.outcome = .error cause ∧
      ∀ entry ∈ earlier, ∃ reply, entry.outcome = .ok reply

namespace IsOrderly

variable {initial : σ} {past : List ServerEvent}

/-- A server that nobody has connected to is in order. -/
theorem start (handler : Handler σ) (initial : σ) :
    IsOrderly handler initial [] (Server.start initial) where
  conforms _ := Dialogue.Conforms.start
  replay_eq := rfl
  answered _ _ hentry := absurd hentry List.not_mem_nil
  stopped _ hfailure := nomatch hfailure

theorem waiting_of_queued (h : IsOrderly handler initial past server) (k : Nat)
    (hqueued : (server.dialogue k).queued ≠ []) :
    (server.dialogue k).channel.phase = .waiting := by
  obtain ⟨request, queued, hcons⟩ := List.exists_cons_of_ne_nil hqueued
  exact ((h.conforms k).of_queued hcons).1

/-- The journal after one more request is what the handler says to one more request. -/
theorem replay_append (h : IsOrderly handler initial past server) {k : Nat} {request : String}
    {outcome : Except Error String} {state : σ}
    (houtcome : (handler request).outcome server.state = (outcome, state)) :
    handler.replay initial
        ((server.journal ++ [Handled.mk k request outcome]).map Handled.request)
      = ((server.journal ++ [Handled.mk k request outcome]).map Handled.outcome, state) := by
  rw [List.map_append, List.map_append]
  show handler.replay initial (_ ++ [request]) = (_ ++ [outcome], state)
  rw [Handler.replay_append_singleton, h.replay_eq, houtcome]

/-- A step keeps all connections and the journal in order. -/
theorem step (h : IsOrderly handler initial past server) {event : ServerEvent}
    (hstep : server.step handler event = some next) :
    IsOrderly handler initial (past ++ [event]) next := by
  have htransition := transition_of_step hstep
  have hconforms : ∀ k, (next.dialogue k).Conforms (streamOf k (past ++ [event])) := fun k => by
    rw [streamOf_append_singleton]
    exact (h.conforms k).step (htransition.dialogue h.waiting_of_queued k)
  -- what is left concerns the handler, which only two kinds of steps involve
  cases htransition with
  | accept => exact ⟨hconforms, h.replay_eq, h.answered, h.stopped⟩
  | move present move others => exact ⟨hconforms, h.replay_eq, h.answered, h.stopped⟩
  | enqueue present holding running =>
    exact ⟨hconforms, h.replay_eq, h.answered,
      fun cause hfailure => nomatch running.symm.trans hfailure⟩
  | @reply k request reply queue state running oldest outcome =>
    refine ⟨hconforms, h.replay_append outcome, fun _ => ?_,
      fun cause hfailure => nomatch running.symm.trans hfailure⟩
    exact List.forall_mem_append.mpr
      ⟨h.answered running, List.forall_mem_singleton.mpr ⟨reply, rfl⟩⟩
  | @fail k request cause queue state running oldest outcome =>
    refine ⟨hconforms, h.replay_append outcome, (fun hfailure => nomatch hfailure), ?_⟩
    intro cause' hfailure
    cases hfailure
    exact ⟨rfl, server.journal, _, rfl, rfl, h.answered running⟩

theorem run_cons (server : Server σ) (event : ServerEvent) (events : List ServerEvent) :
    server.run handler (event :: events)
      = (server.step handler event).bind fun next => next.run handler events := by
  cases hstep : server.step handler event with
  | none => simp [run, hstep]
  | some next => simp [run, hstep]

/-- What every step keeps, given that all is in order, every run keeps. -/
theorem run_induction {P : Server σ → Prop}
    (hkeep : ∀ {past server event next}, IsOrderly handler initial past server → P server →
      server.step handler event = some next → P next)
    (h : IsOrderly handler initial past server) (hP : P server) {events : List ServerEvent}
    (hrun : server.run handler events = some next) :
    IsOrderly handler initial (past ++ events) next ∧ P next := by
  -- the past grows by each event
  induction events generalizing past server with
  | nil =>
    cases hrun
    rw [List.append_nil]
    exact ⟨h, hP⟩
  | cons event events ih =>
    rw [run_cons] at hrun
    obtain ⟨middle, hstep, hmiddle⟩ := Option.bind_eq_some_iff.mp hrun
    rw [List.append_cons]
    exact ih (h.step hstep) (hkeep h hP hstep) hmiddle

/-- After any run the server is in order. -/
theorem run {events : List ServerEvent}
    (hrun : (Server.start initial).run handler events = some server) :
    IsOrderly handler initial events server :=
  (run_induction (P := fun _ => True) (fun _ _ _ => trivial) (start handler initial) trivial hrun).1

/-- The failure of the handler is the one of the last request that it got. -/
theorem of_error (h : IsOrderly handler initial past server) {entry : Handled} {cause : Error}
    (hentry : entry ∈ server.journal) (herror : entry.outcome = .error cause) :
    server.failure = some cause ∧ ∃ earlier, server.journal = earlier ++ [entry] := by
  have hnever : ∀ {entries : List Handled}, (∀ e ∈ entries, ∃ reply, e.outcome = .ok reply) →
      entry ∉ entries := fun hok hmem => by
    obtain ⟨reply, hreply⟩ := hok entry hmem
    cases hreply.symm.trans herror
  cases hfailure : server.failure with
  | none => exact absurd hentry (hnever (h.answered hfailure))
  | some cause' =>
    obtain ⟨-, earlier, last, hjournal, hlast, hok⟩ := h.stopped cause' hfailure
    rw [hjournal] at hentry ⊢
    rcases List.mem_append.mp hentry with hearlier | hsingle
    · exact absurd hearlier (hnever hok)
    · obtain rfl := List.mem_singleton.mp hsingle
      cases hlast.symm.trans herror
      exact ⟨rfl, earlier, rfl⟩

end IsOrderly

/-! ## §4. Ends -/

variable {initial : σ} {past : List ServerEvent}

/-- Nothing more is read, handled or written on a connection that is closed. -/
theorem closed_for_good (h : IsOrderly handler initial past server) {k : Nat}
    (hclosed : (server.dialogue k).channel.phase = .closed) {events : List ServerEvent}
    (hrun : server.run handler events = some next) :
    (next.dialogue k).channel.phase = .closed ∧
      (next.dialogue k).handled = (server.dialogue k).handled ∧
      (next.dialogue k).channel.written = (server.dialogue k).channel.written := by
  refine (IsOrderly.run_induction (P := fun later =>
    (later.dialogue k).channel.phase = .closed ∧
      (later.dialogue k).handled = (server.dialogue k).handled ∧
      (later.dialogue k).channel.written = (server.dialogue k).channel.written)
    ?_ h ⟨hclosed, rfl, rfl⟩ hrun).2
  rintro past middle event later horderly ⟨hphase, hhandled, hwritten⟩ hstep
  have hdialogue := (transition_of_step hstep).dialogue horderly.waiting_of_queued k
  obtain ⟨hphase', hhandled', hwritten'⟩ := hdialogue.of_closed (horderly.conforms k) hphase
  exact ⟨hphase', hhandled'.trans hhandled, hwritten'.trans hwritten⟩

/-- Nothing has changed but one connection. -/
structure ChangesOnly (k : Nat) (before after : Server σ) : Prop where
  state_eq : after.state = before.state
  queue_eq : after.queue = before.queue
  journal_eq : after.journal = before.journal
  failure_eq : after.failure = before.failure
  dialogue_eq : ∀ j, k ≠ j → after.dialogue j = before.dialogue j

/-- Changing one connection changes nothing else. -/
theorem changesOnly_change (server : Server σ) (k : Nat) (f : Channel → Channel) :
    ChangesOnly k server (server.change k f) where
  state_eq := rfl
  queue_eq := rfl
  journal_eq := rfl
  failure_eq := rfl
  dialogue_eq j hj := by
    show (⟨channelOf (server.channels.modify k f) j, _, _⟩ : Dialogue) = _
    rw [channelOf_modify_of_ne hj]
    rfl

/-- What a connection does by itself is a step of the server that changes nothing else. -/
theorem step_of_move {event : ServerEvent} {k : Nat} {move : Channel → Option Channel} {c : Channel}
    (hevent : server.step handler event = server.moveChannel k move)
    (hpresent : server.channels[k]? = some (server.dialogue k).channel)
    (hmove : move (server.dialogue k).channel = some c) :
    ∃ next, server.step handler event = some next ∧ (next.dialogue k).channel = c ∧
      ChangesOnly k server next := by
  refine ⟨server.change k fun _ => c, ?_, channelOf_modify_self hpresent _, changesOnly_change _ _ _⟩
  rw [hevent]
  unfold moveChannel
  rw [hpresent, Option.bind_some, hmove]
  rfl

/-- A reader that finds that there is no well-formed frame ends its connection. -/
theorem closed_of_read {k : Nat} (hreading : (server.dialogue k).channel.phase = .reading)
    (hready : (server.dialogue k).channel.ended = true ∨
      Frame.isReady (server.dialogue k).channel.unread = true)
    (hnone : Frame.payloads (server.dialogue k).channel.unread = []) :
    ∃ next, server.step handler (.read k) = some next ∧
      (next.dialogue k).channel.phase = .closed ∧ ChangesOnly k server next := by
  have hpresent : server.channels[k]? = some (server.dialogue k).channel := by
    refine present_of_ne_fresh fun hfresh => ?_
    change (channelOf server.channels k).ended = true ∨
      Frame.isReady (channelOf server.channels k).unread = true at hready
    rw [hfresh] at hready
    exact absurd hready (by decide)
  obtain ⟨c, hread, hclosed⟩ : ∃ c, readChannel (server.dialogue k).channel = some c ∧
      c.phase = .closed := by
    unfold readChannel
    rw [if_pos ⟨hreading, hready⟩]
    split
    case h_1 request rest hread => exact absurd hread (Frame.payloads_eq_nil_iff.mp hnone request rest)
    case h_2 => exact ⟨_, rfl, rfl⟩
  obtain ⟨next, hstep, hchannel, honly⟩ :
      ∃ next, server.step handler (.read k) = some next ∧ (next.dialogue k).channel = c ∧
        ChangesOnly k server next := step_of_move rfl hpresent hread
  exact ⟨next, hstep, by rw [hchannel, hclosed], honly⟩

/-- A reply that is too large for a frame ends its connection, and nothing of it is written. -/
theorem closed_of_write {k : Nat} {reply : String}
    (hreplying : (server.dialogue k).channel.phase = .replying reply) (hlarge : ¬ Frame.Fits reply) :
    ∃ next, server.step handler (.write k) = some next ∧
      (next.dialogue k).channel = (server.dialogue k).channel.become .closed ∧
      ChangesOnly k server next := by
  have hpresent : server.channels[k]? = some (server.dialogue k).channel :=
    present_of_phase_ne fun hreading => nomatch hreplying.symm.trans hreading
  refine step_of_move rfl hpresent ?_
  unfold writeChannel
  rw [hreplying]
  exact if_pos (Nat.lt_of_not_le hlarge)

/-- What a server that has stopped can come to: no request is handled or let into the queue, and of the
replies only those that a reader holds already can be written. -/
structure IsAftermath (before after : Server σ) : Prop where
  failure_eq : after.failure = before.failure
  journal_eq : after.journal = before.journal
  queue_eq : after.queue = []
  sent : ∀ k, ∃ sent,
    (after.dialogue k).channel.written = (before.dialogue k).channel.written ++ sent ∧
      sent.map .ok ++ (after.dialogue k).channel.inFlight <+: (before.dialogue k).channel.inFlight

/-- A server that has stopped handles nothing and lets nothing into its queue. -/
theorem Transition.of_failure {event : ServerEvent} {cause : Error}
    (h : Transition handler server event next) (hfailure : server.failure = some cause) :
    next.failure = server.failure ∧ next.journal = server.journal ∧ next.queue = server.queue := by
  cases h with
  | accept => exact ⟨rfl, rfl, rfl⟩
  | move present move others => exact ⟨rfl, rfl, rfl⟩
  | enqueue present holding running => exact nomatch running.symm.trans hfailure
  | reply running oldest outcome => exact nomatch running.symm.trans hfailure
  | fail running oldest outcome => exact nomatch running.symm.trans hfailure

/-- Whatever happens to a server that has stopped, no reply is made any more. -/
theorem IsAftermath.run {cause : Error} (h : IsOrderly handler initial past server)
    (hfailure : server.failure = some cause) {events : List ServerEvent}
    (hrun : server.run handler events = some next) : IsAftermath server next := by
  have hstart : IsAftermath server server :=
    ⟨rfl, rfl, (h.stopped cause hfailure).1,
      fun k => ⟨[], (List.append_nil _).symm, List.prefix_refl _⟩⟩
  refine (IsOrderly.run_induction (P := IsAftermath server) ?_ h hstart hrun).2
  intro past middle event later horderly hmiddle hstep
  have htransition := transition_of_step hstep
  obtain ⟨hfailure', hjournal, hqueue⟩ := htransition.of_failure (hmiddle.failure_eq.trans hfailure)
  refine ⟨hfailure'.trans hmiddle.failure_eq, hjournal.trans hmiddle.journal_eq,
    hqueue.trans hmiddle.queue_eq, fun k => ?_⟩
  have hqueued : (later.dialogue k).queued = [] := by
    show queuedOf later.queue k = []
    rw [hqueue, hmiddle.queue_eq]
    rfl
  have hhandled : (later.dialogue k).handled = (middle.dialogue k).handled := by
    show handledOf later.journal k = _
    rw [hjournal]
    rfl
  obtain ⟨before, hbefore, hheld⟩ := hmiddle.sent k
  obtain ⟨now, hnow, hleft⟩ :=
    (htransition.dialogue horderly.waiting_of_queued k).sent hqueued hhandled
  refine ⟨before ++ now, ?_, ?_⟩
  · rw [hnow, hbefore, List.append_assoc]
  · rw [List.map_append, List.append_assoc]
    exact ((List.prefix_append_right_inj _).mpr hleft).trans hheld

/-! ## §5. All runs -/

/-- After any run, whatever the handler, the connections and the order of events, the journal is what the
handler says to requests that it gets one after the other.  For each connection:
* the requests handled are the first well-formed frames of its stream;
* the replies written, which the peer can read as they are, are the answers to exactly these requests, and
  at most one answer more is there, which the reader holds or which ended the connection;
* the queue, whose oldest request is the one that the handler is at, has one request of it at most;
* an open connection has passed nothing in its stream but the frames that were read, and a frame that is bad
  or cut or a reply over the limit ends it, alone and for good.
Once the handler has failed, nothing more is handled, and what is still written is an answer that was there
before. -/
theorem connections_answered_in_order (handler : Handler σ) (initial : σ)
    (events : List ServerEvent) (server : Server σ)
    (hrun : (start initial).run handler events = some server) :
    handler.replay initial (server.journal.map Handled.request)
      = (server.journal.map Handled.outcome, server.state) ∧
    (∀ k,
      let d := server.dialogue k
      d.requests <+: Frame.payloads (streamOf k events) ∧
      (∃ last, d.outcomes = d.channel.written.map .ok ++ last ∧ last.length ≤ 1 ∧
        (d.channel.phase ≠ .closed → last = d.channel.inFlight)) ∧
      Frame.payloads (Responder.framesOf d.channel.written) = d.channel.written ∧
      d.queued.length ≤ 1 ∧
      (d.channel.phase ≠ .closed →
        streamOf k events = d.asked.flatMap Frame.frame ++ d.channel.unread) ∧
      (d.channel.phase = .reading → d.channel.ended = true ∨ Frame.isReady d.channel.unread = true →
        Frame.payloads d.channel.unread = [] →
        ∃ next, server.step handler (.read k) = some next ∧
          (next.dialogue k).channel.phase = .closed ∧ ChangesOnly k server next) ∧
      (∀ reply, d.channel.phase = .replying reply → ¬ Frame.Fits reply →
        ∃ next, server.step handler (.write k) = some next ∧
          (next.dialogue k).channel = d.channel.become .closed ∧ ChangesOnly k server next) ∧
      ∀ more later, d.channel.phase = .closed → server.run handler more = some later →
        (later.dialogue k).channel.phase = .closed ∧ (later.dialogue k).handled = d.handled ∧
          (later.dialogue k).channel.written = d.channel.written) ∧
    ∀ entry ∈ server.journal, ∀ cause, entry.outcome = .error cause →
      (∃ earlier, server.journal = earlier ++ [entry]) ∧
      ∀ more later, server.run handler more = some later →
        later.journal = server.journal ∧
        ∀ k, ∃ sent,
          (later.dialogue k).channel.written = (server.dialogue k).channel.written ++ sent ∧
            sent.map .ok <+: (server.dialogue k).channel.inFlight := by
  have horderly : IsOrderly handler initial events server := IsOrderly.run hrun
  refine ⟨horderly.replay_eq, fun k => ?_, fun entry hentry cause herror => ?_⟩
  · have hconforms := horderly.conforms k
    exact ⟨hconforms.isPrefix_requests, hconforms.outcomes_eq,
      Frame.payloads_framesOf hconforms.written_fits, hconforms.length_queued_le,
      hconforms.stream_eq, closed_of_read, fun _ => closed_of_write,
      fun _ _ hclosed hmore => closed_for_good horderly hclosed hmore⟩
  · obtain ⟨hfailure, hlast⟩ := horderly.of_error hentry herror
    refine ⟨hlast, fun more later hmore => ?_⟩
    have hafter := IsAftermath.run horderly hfailure hmore
    refine ⟨hafter.journal_eq, fun k => ?_⟩
    obtain ⟨sent, hwritten, hprefix⟩ := hafter.sent k
    exact ⟨sent, hwritten, (List.prefix_append _ _).trans hprefix⟩

/-- Two connections whose requests meet: one is answered, the handler fails at the other, and the answer is
written after that. -/
def meeting : List ServerEvent :=
  [.accept, .accept, .arrive 1 (Frame.frame "b"), .arrive 0 (Frame.frame "a" ++ Frame.frame "c"),
    .read 0, .read 1, .enqueue 1, .enqueue 0, .handle, .handle, .write 1]

/-- Two requests that meet at a handler with one answer left: the first gets it, and the second stops the
server. -/
theorem connections_answered_in_order_meeting :
    ∃ server : Server (Option Nat × Unit),
      (start (some 1, ())).run (Handler.limited fun request => pure request) meeting = some server ∧
      server.journal.map Handled.request = ["b", "a"] ∧
      (server.dialogue 1).channel.written = ["b"] ∧
      (server.dialogue 0).requests <+: Frame.payloads (streamOf 0 meeting) ∧
      (∃ last, (server.dialogue 0).outcomes = [].map .ok ++ last ∧ last.length ≤ 1) ∧
      ∀ entry ∈ server.journal, ∀ cause, entry.outcome = .error cause →
        ∃ earlier, server.journal = earlier ++ [entry] := by
  have hresult : ((start (some 1, ())).run (Handler.limited fun request => pure request) meeting).map
      (fun server => (server.journal.map Handled.request, (server.dialogue 1).channel.written,
        (server.dialogue 0).channel.written)) = some (["b", "a"], ["b"], []) := by
    decide +kernel
  obtain ⟨server, hrun, hserver⟩ := Option.map_eq_some_iff.mp hresult
  simp only [Prod.mk.injEq] at hserver
  obtain ⟨hjournal, hone, hzero⟩ := hserver
  obtain ⟨-, hconnections, hfailure⟩ := connections_answered_in_order _ _ _ server hrun
  obtain ⟨hrequests, ⟨last, houtcomes, hlast, -⟩, -⟩ := hconnections 0
  rw [hzero] at houtcomes
  exact ⟨server, hrun, hjournal, hone, hrequests, ⟨last, houtcomes, hlast⟩,
    fun entry hentry cause herror => (hfailure entry hentry cause herror).1⟩

end Server

end CsvQuery

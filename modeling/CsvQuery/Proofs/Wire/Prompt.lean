/-
  CsvQuery.Proofs.Wire.Prompt — a server that does at once all that a request needs.

  A server whose handler always answers works off its queue, one request after the other, and then the reply
  to a request that was sent can be written.  So a fetch from a server that is prompt is one around which the
  server stays up, and if nothing else waits at the server the handler is asked this one request only.

  Main results:
    • `Link.IsAtRest.promptly_served` — what a prompt server comes to
    • `Remote.IsReady.staysUp_promptly` — it stays up
    • `Remote.IsQuiet.fetch_promptly` — a fetch is the handler's answer
-/
import CsvQuery.Proofs.Wire.Fetch

namespace CsvQuery

variable {σ : Type} {handler : Handler σ} {name : String}

/-! ## §1. Working off the queue -/

/-- The handler answers every request in every state. -/
def Handler.Answers (handler : Handler σ) : Prop :=
  ∀ request state, ∃ reply next, (handler request).outcome state = (.ok reply, next)

namespace Server

variable {server : Server σ} {k : Nat}

/-- A running server handles the oldest request, and a handler that always answers keeps it running. -/
theorem handle_of_answers (hanswers : handler.Answers) (hrunning : server.failure = none)
    {j : Nat} {request : String} {queue : List (Nat × String)}
    (hqueue : server.queue = (j, request) :: queue) :
    ∃ next, server.step handler .handle = some next ∧ next.failure = none ∧ next.queue = queue ∧
      next.journal.length = server.journal.length + 1 := by
  obtain ⟨reply, state, houtcome⟩ := hanswers request server.state
  have hstep : server.step handler .handle = some
      (({ server with
          state, queue, journal := server.journal ++ [⟨j, request, .ok reply⟩] } : Server σ).change j
        (·.become (.replying reply))) := by
    show server.handleNext handler = _
    unfold handleNext
    rw [hrunning, hqueue]
    simp only [houtcome]
  exact ⟨_, hstep, hrunning, rfl, List.length_append⟩

/-- As many requests are handled as are in the queue. -/
theorem advance_handles (hanswers : handler.Answers) (hrunning : server.failure = none)
    {queue : List (Nat × String)} (hqueue : server.queue = queue) :
    (server.advance handler (List.replicate queue.length .handle)).failure = none ∧
      (server.advance handler (List.replicate queue.length .handle)).queue = [] ∧
      (server.advance handler (List.replicate queue.length .handle)).journal.length
        = server.journal.length + queue.length := by
  induction queue generalizing server with
  | nil => exact ⟨hrunning, hqueue, rfl⟩
  | cons first queue ih =>
    obtain ⟨next, hstep, hrunning', hqueue', hjournal⟩ := handle_of_answers hanswers hrunning hqueue
    rw [List.length_cons, List.replicate_succ, advance_cons, hstep, Option.getD_some]
    obtain ⟨hstill, hnone, hlength⟩ := ih hrunning' hqueue'
    exact ⟨hstill, hnone, by rw [hlength, hjournal]; omega⟩

/-- A server whose handler always answers does not fail. -/
theorem Becomes.failure_of_answers {before after : Server σ} (h : Becomes handler before after)
    (hanswers : handler.Answers) (hrunning : before.failure = none) : after.failure = none := by
  obtain ⟨events, rfl⟩ := h
  induction events generalizing before with
  | nil => exact hrunning
  | cons event events ih =>
    rw [advance_cons]
    cases hstep : before.step handler event with
    | none => exact ih hrunning
    | some next =>
      refine ih ?_
      cases transition_of_step hstep with
      | accept => exact hrunning
      | move present move others => exact hrunning
      | enqueue present holding running => exact hrunning
      | reply running oldest outcome => exact hrunning
      | fail running oldest outcome =>
        obtain ⟨reply, state, hanswer⟩ := hanswers _ before.state
        cases hanswer.symm.trans outcome

variable {written queued : List String} {handled : List Handled}

/-- A step of a connection of its own changes nothing else. -/
theorem advance_of_move {event : ServerEvent} {move : Channel → Option Channel} {c next : Channel}
    (hevent : server.step handler event = server.moveChannel k move)
    (hpresent : k < server.channels.length) (hbefore : server.dialogue k = ⟨c, queued, handled⟩)
    (hmove : move c = some next) :
    (server.advance handler [event]).dialogue k = ⟨next, queued, handled⟩ ∧
      ChangesOnly k server (server.advance handler [event]) := by
  have hchannel := present_of_lt hpresent
  rw [hbefore] at hchannel
  have hstep : server.step handler event = some (server.change k fun _ => next) := by
    rw [hevent]
    unfold moveChannel
    rw [hchannel, Option.bind_some, hmove]
    rfl
  rw [advance_of_step hstep, dialogue_change_self hchannel, hbefore]
  exact ⟨rfl, changesOnly_change _ _ _⟩

/-- A request that its reader holds goes last into the queue. -/
theorem advance_enqueue (hrunning : server.failure = none) (hpresent : k < server.channels.length)
    (hheld : server.dialogue k = ⟨⟨[], false, .holding name, written⟩, [], handled⟩) :
    (server.advance handler [.enqueue k]).dialogue k
        = ⟨⟨[], false, .waiting, written⟩, [name], handled⟩ ∧
      (server.advance handler [.enqueue k]).queue = server.queue ++ [(k, name)] ∧
      (server.advance handler [.enqueue k]).failure = none ∧
      (server.advance handler [.enqueue k]).journal = server.journal := by
  have hchannel := present_of_lt hpresent
  rw [hheld] at hchannel
  have hstep : server.step handler (.enqueue k) = some
      ({ server with queue := server.queue ++ [(k, name)] }.change k (·.become .waiting)) := by
    show server.enqueueFrom k = _
    unfold enqueueFrom
    rw [hchannel, hrunning]
  rw [advance_of_step hstep]
  refine ⟨?_, rfl, hrunning, rfl⟩
  have hqueued : queuedOf server.queue k = [] := congrArg Dialogue.queued hheld
  have hhandled : handledOf server.journal k = handled := congrArg Dialogue.handled hheld
  show (⟨channelOf (server.channels.modify k _) k, queuedOf (server.queue ++ [(k, name)]) k,
    handledOf server.journal k⟩ : Dialogue) = _
  rw [channelOf_modify_self hchannel, queuedOf_append, queuedOf_cons_self, hqueued, hhandled]
  rfl

/-- While the handler works, a request in the queue stays there until it is answered. -/
theorem waits_or_replying (horder : server.IsInOrder) (hanswers : handler.Answers)
    (hrunning : server.failure = none)
    (hwaiting : server.dialogue k = ⟨⟨[], false, .waiting, written⟩, [name], handled⟩) (n : Nat) :
    (server.advance handler (List.replicate n .handle)).dialogue k
        = ⟨⟨[], false, .waiting, written⟩, [name], handled⟩ ∨
      ∃ reply, (server.advance handler (List.replicate n .handle)).dialogue k
        = ⟨⟨[], false, .replying reply, written⟩, [], handled ++ [⟨k, name, .ok reply⟩]⟩ := by
  refine (horder.advance_induction
    (P := fun server => server.failure = none ∧
      (server.dialogue k = ⟨⟨[], false, .waiting, written⟩, [name], handled⟩ ∨
        ∃ reply, server.dialogue k
          = ⟨⟨[], false, .replying reply, written⟩, [], handled ++ [⟨k, name, .ok reply⟩]⟩))
    ?_ ⟨hrunning, .inl hwaiting⟩).2.2
  -- the connection changes only when it is the turn of its own request
  rintro server event next hmem horder ⟨hrunning, hstage⟩ hstep
  obtain rfl := List.eq_of_mem_replicate hmem
  have hrunning' : next.failure = none :=
    Becomes.failure_of_answers ⟨[.handle], (advance_of_step hstep).symm⟩ hanswers hrunning
  have hserved := served_of_step hstep rfl (horder.waiting_of_queued k)
  refine ⟨hrunning', ?_⟩
  generalize next.dialogue k = d at hserved
  rcases hstage with hwaits | ⟨reply, hreplies⟩
  · rw [hwaits] at hserved
    cases hserved with
    | idle => exact .inl rfl
    | reply reply oldest =>
      cases oldest
      exact .inr ⟨reply, rfl⟩
    | fail cause oldest why => exact absurd hrunning' why
    | abandon why => exact absurd hrunning' why
  · rw [hreplies] at hserved
    cases hserved with
    | idle => exact .inr ⟨reply, rfl⟩
    | reply reply oldest => cases oldest
    | fail cause oldest => cases oldest
    | abandon why => exact absurd hrunning' why

/-- A server that works off its queue answers a request in it. -/
theorem replying_of_handles (horder : server.IsInOrder) (hanswers : handler.Answers)
    (hrunning : server.failure = none)
    (hwaiting : server.dialogue k = ⟨⟨[], false, .waiting, written⟩, [name], handled⟩) :
    ∃ reply, (server.advance handler (List.replicate server.queue.length .handle)).dialogue k
      = ⟨⟨[], false, .replying reply, written⟩, [], handled ++ [⟨k, name, .ok reply⟩]⟩ := by
  refine (waits_or_replying horder hanswers hrunning hwaiting _).resolve_left fun hwaits => ?_
  -- after as many events as there are requests none is left in the queue
  have hnone := (advance_handles hanswers hrunning rfl).2.1
  have hqueued := congrArg Dialogue.queued hwaits
  change queuedOf _ k = [name] at hqueued
  rw [hnone] at hqueued
  cases hqueued

/-- A reply is written, or it is too large and the connection is closed. -/
theorem advance_write (hpresent : k < server.channels.length) {reply : String}
    (hreplying : server.dialogue k = ⟨⟨[], false, .replying reply, written⟩, [], handled⟩) :
    ((server.advance handler [.write k]).dialogue k).IsIdle ∧
      ChangesOnly k server (server.advance handler [.write k]) := by
  have hwrite : ∃ phase after, (phase = .reading ∨ phase = .closed) ∧
      writeChannel ⟨[], false, .replying reply, written⟩ = some ⟨[], false, phase, after⟩ := by
    unfold writeChannel
    by_cases hlarge : Frame.maxPayload < reply.utf8ByteSize
    · exact ⟨_, _, .inr rfl, if_pos hlarge⟩
    · exact ⟨_, _, .inl rfl, if_neg hlarge⟩
  obtain ⟨phase, after, hphase, hmove⟩ := hwrite
  obtain ⟨hdialogue, honly⟩ :
      (server.advance handler [.write k]).dialogue k = ⟨⟨[], false, phase, after⟩, [], handled⟩ ∧
        ChangesOnly k server (server.advance handler [.write k]) :=
    advance_of_move rfl hpresent hreplying hmove
  rw [hdialogue]
  refine ⟨?_, honly⟩
  rcases hphase with rfl | rfl <;> exact ⟨rfl, rfl, rfl, rfl⟩

end Server

/-! ## §2. Prompt servers -/

namespace Server

variable {server : Server σ} {k : Nat} {written : List String} {handled : List Handled}

/-- The events at a prompt server, one kind after the other. -/
theorem attend_prompt (handler : Handler σ) (server : Server σ) (k n : Nat) :
    server.attend handler k
        ([ServerEvent.read k, .enqueue k] ++ (List.replicate n .handle ++ [.write k]))
      = (((server.advance handler [.read k]).advance handler [.enqueue k]).advance handler
          (List.replicate n .handle)).advance handler [.write k] := by
  have hall : ([ServerEvent.read k, ServerEvent.enqueue k] ++
      (List.replicate n ServerEvent.handle ++ [ServerEvent.write k])).filter (fun event => !event.isBy k)
        = [.read k] ++ ([.enqueue k] ++ (List.replicate n .handle ++ [.write k])) := by
    refine List.filter_eq_self.mpr fun event hevent => ?_
    rcases List.mem_append.mp hevent with htaken | hlater
    · rcases List.mem_cons.mp htaken with rfl | hnext
      · rfl
      · obtain rfl := List.mem_singleton.mp hnext
        rfl
    · rcases List.mem_append.mp hlater with hhandled | hwritten
      · obtain rfl := List.eq_of_mem_replicate hhandled
        rfl
      · obtain rfl := List.mem_singleton.mp hwritten
        rfl
  unfold attend
  rw [hall, advance_append, advance_append, advance_append]

/-- A request that has come in gets into the queue. -/
theorem waiting_of_sent (hpresent : k < server.channels.length) (hrunning : server.failure = none)
    (hname : Frame.Fits name)
    (hsent : server.dialogue k = ⟨⟨Frame.frame name, false, .reading, written⟩, [], handled⟩)
    {next : Server σ} (hnext : next = (server.advance handler [.read k]).advance handler [.enqueue k]) :
    next.dialogue k = ⟨⟨[], false, .waiting, written⟩, [name], handled⟩ ∧
      next.queue = server.queue ++ [(k, name)] ∧ next.failure = none ∧
      next.journal = server.journal := by
  obtain ⟨hheld, honly⟩ :
      (server.advance handler [.read k]).dialogue k
          = ⟨⟨[], false, .holding name, written⟩, [], handled⟩ ∧
        ChangesOnly k server (server.advance handler [.read k]) :=
    advance_of_move rfl hpresent hsent (Dialogue.readChannel_frame hname written)
  have hpresent' : k < (server.advance handler [.read k]).channels.length :=
    Nat.lt_of_lt_of_le hpresent (Extends.advance server _).channels
  rw [hnext, ← honly.queue_eq, ← honly.journal_eq]
  exact advance_enqueue (honly.failure_eq.trans hrunning) hpresent' hheld

/-- A request in the queue is handled with all that is there, and its reply is written. -/
theorem idle_of_waiting (horder : server.IsInOrder) (hpresent : k < server.channels.length)
    (hrunning : server.failure = none) (hanswers : handler.Answers)
    (hwaiting : server.dialogue k = ⟨⟨[], false, .waiting, written⟩, [name], handled⟩)
    {next : Server σ}
    (hnext : next = (server.advance handler (List.replicate server.queue.length .handle)).advance
      handler [.write k]) :
    (next.dialogue k).IsIdle ∧ next.failure = none ∧ next.queue = [] ∧
      next.journal.length = server.journal.length + server.queue.length := by
  obtain ⟨reply, hreplying⟩ := replying_of_handles horder hanswers hrunning hwaiting
  obtain ⟨hrunning', hqueue, hjournal⟩ := advance_handles hanswers hrunning rfl
  have hpresent' : k < (server.advance handler
      (List.replicate server.queue.length .handle)).channels.length :=
    Nat.lt_of_lt_of_le hpresent (Extends.advance server _).channels
  obtain ⟨hidle, honly⟩ := advance_write hpresent' hreplying
  rw [hnext]
  exact ⟨hidle, honly.failure_eq.trans hrunning', honly.queue_eq.trans hqueue,
    (congrArg List.length honly.journal_eq).trans hjournal⟩

end Server

/-- A prompt server comes to be done with a request that is sent on an open connection at rest, has handled
it and all that was in the queue, and nothing else. -/
theorem Link.IsAtRest.promptly_served {link : Link} {server : Server σ} {turn : Turn}
    (h : link.IsAtRest server) (horder : server.IsInOrder)
    (hopen : (server.dialogue link.channel).channel.phase ≠ .closed)
    (hrunning : server.failure = none) (hanswers : handler.Answers) (hname : Frame.Fits name)
    (hmeanwhile : turn.meanwhile = [.read link.channel, .enqueue link.channel]
      ++ (List.replicate (server.queue.length + 1) .handle ++ [.write link.channel])) :
    ((link.served handler turn name server).dialogue link.channel).IsIdle ∧
      (link.served handler turn name server).failure = none ∧
      (link.served handler turn name server).queue = [] ∧
      (link.served handler turn name server).journal.length
        = server.journal.length + (server.queue.length + 1) := by
  have hgrown : ∀ {before after : Server σ}, before.Becomes handler after →
      link.channel < before.channels.length → link.channel < after.channels.length :=
    fun hbecomes hpresent => Nat.lt_of_lt_of_le hpresent hbecomes.grown.channels
  have harrives : server.Becomes handler
      (server.advance handler [.arrive link.channel (Frame.frame name)]) := .advance _ _
  obtain ⟨hsent, honly⟩ :
      (server.advance handler [.arrive link.channel (Frame.frame name)]).dialogue link.channel
          = ⟨⟨Frame.frame name, false, .reading, (server.dialogue link.channel).channel.written⟩, [],
            (server.dialogue link.channel).handled⟩ ∧
        server.ChangesOnly link.channel
          (server.advance handler [.arrive link.channel (Frame.frame name)]) :=
    Server.advance_of_move rfl h.present ((h.resting.of_open hopen).eq_of_whole id) rfl
  unfold served
  rw [hmeanwhile, Server.attend_prompt, ← honly.queue_eq, ← honly.journal_eq]
  have hrunning' := honly.failure_eq.trans hrunning
  -- from here on only what is known of the server with the request on it matters
  generalize server.advance handler [.arrive link.channel (Frame.frame name)] = sent at *
  have htaken : sent.Becomes handler
      ((sent.advance handler [.read link.channel]).advance handler [.enqueue link.channel]) :=
    .trans (.advance _ _) (.advance _ _)
  obtain ⟨hwaiting, hqueue, hstill, hjournal⟩ :=
    Server.waiting_of_sent (hgrown harrives h.present) hrunning' hname hsent rfl
  have hlength : sent.queue.length + 1
      = ((sent.advance handler [.read link.channel]).advance handler
        [.enqueue link.channel]).queue.length := by
    rw [hqueue, List.length_append]
    rfl
  rw [hlength, ← hjournal]
  exact Server.idle_of_waiting ((harrives.trans htaken).isInOrder horder)
    (hgrown (harrives.trans htaken) h.present) hstill hanswers hwaiting rfl

/-! ## §3. Prompt fetches -/

namespace Remote

variable {remote : Remote σ}

/-- The server is running, and the connection that is kept is open and at rest. -/
structure IsReady (remote : Remote σ) : Prop where
  sound : remote.IsSound
  isOpen : remote.IsOpen
  running : remote.server.failure = none

theorem IsReady.start (state : σ) : IsReady (Remote.start (.start state)) where
  sound := .start state
  isOpen _ hlink := nomatch hlink
  running := rfl

/-- A fetch during which the server stays up leaves the remote ready for the next one. -/
theorem IsReady.fetch {turn : Turn} (h : remote.IsReady) (hup : remote.StaysUp handler turn name) :
    (remote.fetch handler turn name).2.IsReady where
  sound := h.sound.fetch handler turn name
  isOpen := (h.sound.fetch_of_staysUp h.isOpen hup).1
  running := hup.running

theorem rest_nil (handler : Handler σ) (remote : Remote σ) : remote.rest handler [] = remote := by
  obtain ⟨server, link⟩ := remote
  cases link <;> rfl

theorem connect_keeps {turn : Turn} {link : Link} {server : Server σ}
    (h : remote.connect handler turn = (.ok link, server)) :
    server.failure = remote.server.failure ∧ server.queue = remote.server.queue ∧
      server.journal = remote.server.journal := by
  unfold connect at h
  split at h
  case h_1 =>
    cases h
    exact ⟨rfl, rfl, rfl⟩
  case h_2 =>
    split at h
    case h_1 => cases h
    case h_2 =>
      cases h
      exact ⟨rfl, rfl, rfl⟩

/-- After a fetch from a prompt server nothing of it is left to do, and if a request was sent, it and what
was in the queue have been handled. -/
theorem IsReady.promptly_done (h : remote.IsReady) (hanswers : handler.Answers) (name : String) :
    let after := (remote.fetch handler (remote.promptly .smooth) name).2
    (after.server.dialogue remote.channel).IsIdle ∧ after.server.failure = none ∧
      (Frame.Fits name → after.server.queue = [] ∧
        after.server.journal.length
          = remote.server.journal.length + (remote.server.queue.length + 1)) := by
  have hsmooth : (remote.promptly .smooth).toPassing = .smooth := rfl
  obtain ⟨link, server, hconnect⟩ := exists_connect hsmooth handler remote
  obtain ⟨hchannel, horder, hlink, -, hopen⟩ := h.sound.connect_eq_ok hconnect
  obtain ⟨hfailure, hqueue, hjournal⟩ := connect_keeps hconnect
  have hopened : (remote.rest handler (remote.promptly .smooth).before).connect handler
      (remote.promptly .smooth) = (.ok link, server) := by
    show (remote.rest handler []).connect handler _ = _
    rw [rest_nil]
    exact hconnect
  by_cases hname : Frame.Fits name
  · have hmeanwhile : (remote.promptly .smooth).meanwhile
        = [.read link.channel, .enqueue link.channel]
          ++ (List.replicate (server.queue.length + 1) .handle ++ [.write link.channel]) := by
      rw [hchannel, hqueue]
      rfl
    obtain ⟨hidle, hrunning, hnone, hlength⟩ := hlink.promptly_served horder (hopen h.isOpen)
      (hfailure.trans h.running) hanswers hname hmeanwhile
    obtain ⟨honly, hidle_iff⟩ := fetch_keeps hopened hname rfl
    rw [hqueue, hjournal, ← honly.journal_eq] at hlength
    rw [← hchannel]
    exact ⟨hidle_iff.mpr hidle, honly.failure_eq.trans hrunning,
      fun _ => ⟨honly.queue_eq.trans hnone, hlength⟩⟩
  · obtain ⟨honly, hidle_iff⟩ := Server.advance_finish handler server link.channel
    rw [fetch_of_not_fits hopened hname, ← hchannel]
    exact ⟨hidle_iff.mpr hlink.resting.isIdle, (honly.failure_eq.trans hfailure).trans h.running,
      fun hfits => absurd hfits hname⟩

/-- Around a fetch from a prompt server whose handler always answers the server stays up. -/
theorem IsReady.staysUp_promptly (h : remote.IsReady) (hanswers : handler.Answers) (name : String) :
    remote.StaysUp handler (remote.promptly .smooth) name := by
  obtain ⟨hidle, hrunning, -⟩ := h.promptly_done hanswers name
  have hbefore : (remote.rest handler (remote.promptly .smooth).before).channel = remote.channel :=
    congrArg channel (rest_nil handler remote)
  refine ⟨rfl, rfl, rfl, fun link _ => List.not_mem_nil, ?_, hrunning, ?_⟩
  · intro hlost
    rcases List.mem_append.mp hlost with htaken | hlater
    · simp at htaken
    · rcases List.mem_append.mp hlater with hhandled | hwritten
      · exact absurd (List.eq_of_mem_replicate hhandled) nofun
      · simp at hwritten
  · rw [hbefore]
    exact hidle

/-- The server is ready and has nothing else to do. -/
structure IsQuiet (remote : Remote σ) : Prop extends IsReady remote where
  queue : remote.server.queue = []

theorem IsQuiet.start (state : σ) : IsQuiet (Remote.start (.start state)) where
  toIsReady := .start state
  queue := rfl

/-- A fetch from a prompt server that has nothing else to do is one use of the handler. -/
theorem IsQuiet.fetch_promptly (h : remote.IsQuiet) (hanswers : handler.Answers)
    (hname : Frame.Fits name) :
    ∃ reply, (handler name).outcome remote.server.state
        = (.ok reply, (remote.fetch handler (remote.promptly .smooth) name).2.server.state) ∧
      (remote.fetch handler (remote.promptly .smooth) name).1
        = (if Frame.Fits reply then .ok reply else .error .connectionClosed) ∧
      (remote.fetch handler (remote.promptly .smooth) name).2.IsQuiet := by
  have hup := h.staysUp_promptly hanswers name
  obtain ⟨-, -, hdone⟩ := h.promptly_done hanswers name
  obtain ⟨hqueue, hlength⟩ := hdone hname
  obtain ⟨-, -, hfetch⟩ := h.sound.fetch_of_staysUp h.isOpen hup
  obtain ⟨reply, hhandled, houtcome⟩ := hfetch hname
  obtain ⟨entries, hjournal, hreplay⟩ :=
    (fetch_becomes handler (remote.promptly .smooth) name remote).exists_entries
  -- one request was handled, and it was this one
  have hown := Server.Becomes.handledOf_entries hjournal hhandled
  have hone : entries.length = 1 := by
    rw [hjournal, List.length_append, h.queue] at hlength
    exact Nat.add_left_cancel hlength
  have hall : Server.handledOf entries
      (remote.rest handler (remote.promptly .smooth).before).channel = entries :=
    List.filter_sublist.eq_of_length ((congrArg List.length hown).trans hone.symm)
  rw [← hall, hown] at hreplay
  obtain ⟨hsaid, hstate⟩ := Prod.mk.inj hreplay
  refine ⟨reply, Prod.ext (List.cons.inj hsaid).1 hstate, houtcome, ?_⟩
  exact ⟨h.toIsReady.fetch hup, hqueue⟩

end Remote

end CsvQuery

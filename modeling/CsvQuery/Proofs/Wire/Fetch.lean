/-
  CsvQuery.Proofs.Wire.Fetch — a fetch brings the reply to its own request, or fails.

  A connection that is kept between fetches has no request on it without an answer, and no answer that has
  not been read.  So the first message that comes after a request is the reply to it, and nothing else can
  come.  A fetch that fails gives the connection up, whatever may still be on its way on it.

  Main results:
    • `Link.IsAtRest.receive_eq_ok` — what is received after a request
    • `Remote.IsSound.fetch` — what fetches keep
    • `Remote.fetch_eq_ok` — a fetch that succeeds
    • `Remote.fetch_of_staysUp` — a fetch while the server stays up
-/
import CsvQuery.Proofs.Wire.Exchange

namespace CsvQuery

variable {σ : Type} {handler : Handler σ} {turn : Turn} {name text : String}

/-! ## §1. Receiving -/

theorem Responder.framesOf_append_singleton {written : List String} {reply : String}
    (hwritten : ∀ reply ∈ written, Frame.Fits reply) (hreply : Frame.Fits reply) :
    framesOf (written ++ [reply]) = framesOf written ++ Frame.frame reply := by
  have hall : ∀ text ∈ written ++ [reply], Frame.Fits text :=
    List.forall_mem_append.mpr ⟨hwritten, List.forall_mem_singleton.mpr hreply⟩
  show (Frame.writeAll [] (written ++ [reply])).2 = (Frame.writeAll [] written).2 ++ _
  rw [Frame.writeAll_of_fits hall, Frame.writeAll_of_fits hwritten, List.flatMap_append,
    List.flatMap_singleton]
  rfl

/-- What arrives of an answer is its front. -/
theorem Passing.arriving_isPrefix (passing : Passing) (answer : List UInt8) :
    passing.arriving answer <+: answer := by
  unfold arriving
  cases passing.lossAfter with
  | none => exact List.prefix_refl _
  | some count => exact List.take_prefix count answer

/-- Of a frame that arrives in part or whole nothing else than its own payload is received. -/
theorem Connection.receive_of_isPrefix {bytes : List UInt8} {reply : String}
    {connection : Connection} (hreply : Frame.Fits reply) (hbytes : bytes <+: Frame.frame reply)
    (h : receive ⟨bytes⟩ = .ok (text, connection)) :
    text = reply ∧ bytes = Frame.frame reply ∧ connection = ⟨[]⟩ := by
  unfold receive at h
  split at h
  case h_2 => cases h
  case h_3 => cases h
  case h_1 message rest hread =>
    cases h
    obtain ⟨hfits, hframe⟩ := Frame.read_eq_some_iff.mp hread
    obtain ⟨missing, hmissing⟩ := hbytes
    -- the same stream starts with the one frame and is the other
    have hstream : Frame.frame text ++ (rest ++ missing) = Frame.frame reply ++ [] := by
      rw [← List.append_assoc, ← hframe, hmissing, List.append_nil]
    have hsame := Frame.read_frame_append hfits (rest ++ missing)
    rw [hstream, Frame.read_frame_append hreply] at hsame
    obtain ⟨htext, hrest⟩ := Prod.mk.inj hsame
    cases htext
    obtain ⟨rfl, rfl⟩ := List.append_eq_nil_iff.mp hrest.symm
    exact ⟨rfl, hframe.trans (List.append_nil _), rfl⟩

theorem Connection.receive_nil : receive ⟨[]⟩ = .error .connectionClosed := rfl

/-! ## §2. Connections at rest -/

namespace Link

/-- All requests on the connection are answered and all answers are read. -/
structure IsAtRest (server : Server σ) (link : Link) : Prop where
  present : link.channel < server.channels.length
  resting : (server.dialogue link.channel).Resting (server.dialogue link.channel).channel.written
    (server.dialogue link.channel).handled True
  connection : link.connection = ⟨[]⟩
  arrived : link.arrived
    = (Responder.framesOf (server.dialogue link.channel).channel.written).length

namespace IsAtRest

variable {link next : Link} {server served : Server σ} {broken : Prop}

/-- Where nothing was written since, nothing arrives. -/
theorem arriving_of_written_eq (h : link.IsAtRest server)
    (hwritten : (served.dialogue link.channel).channel.written
      = (server.dialogue link.channel).channel.written) (turn : Turn) :
    link.arriving turn served = [] := by
  have hnone : (Responder.framesOf (served.written link.channel)).drop link.arrived = [] := by
    show (Responder.framesOf (served.dialogue link.channel).channel.written).drop _ = []
    rw [hwritten, h.arrived, List.drop_length]
  unfold arriving
  rw [hnone]
  exact List.prefix_nil.mp (Passing.arriving_isPrefix _ _)

/-- Where one reply was written since, as much of its frame arrives as the system lets through. -/
theorem arriving_of_written_append (h : link.IsAtRest server) (horder : server.IsInOrder)
    {reply : String} (hreply : Frame.Fits reply)
    (hwritten : (served.dialogue link.channel).channel.written
      = (server.dialogue link.channel).channel.written ++ [reply]) (turn : Turn) :
    link.arriving turn served = turn.toPassing.arriving (Frame.frame reply) := by
  unfold arriving
  congr 1
  show (Responder.framesOf (served.dialogue link.channel).channel.written).drop _ = _
  rw [hwritten, Responder.framesOf_append_singleton (horder.written_fits _) hreply, h.arrived,
    List.drop_left]

/-- Whatever becomes of a request and its answer, what is received is the reply to the request, and then
the connection is at rest again. -/
theorem receive_eq_ok (h : link.IsAtRest server) (horder : server.IsInOrder)
    (hserved : server.Extends served)
    (hexchange : (served.dialogue link.channel).Exchange link.channel
      (server.dialogue link.channel).channel.written (server.dialogue link.channel).handled name
      broken)
    (hreceive : link.receive turn served = .ok (text, next)) :
    next.channel = link.channel ∧ next.IsAtRest served ∧
      (served.dialogue link.channel).handled
        = (server.dialogue link.channel).handled ++ [⟨link.channel, name, .ok text⟩] ∧
      (¬ broken → (served.dialogue link.channel).channel.phase ≠ .closed) := by
  unfold receive at hreceive
  split at hreceive
  case h_1 => cases hreceive
  case h_2 =>
    rw [h.connection] at hreceive
    rcases hexchange.written_cases with hnone | ⟨reply, hreply, hresting⟩
    · -- nothing was written, so nothing arrives
      rw [h.arriving_of_written_eq hnone] at hreceive
      cases hreceive
    · -- one reply was written, and what arrives of its frame is received whole or not at all
      rw [h.arriving_of_written_append horder hreply hresting.written_eq] at hreceive
      simp only [List.nil_append] at hreceive
      split at hreceive
      case h_2 => cases hreceive
      case h_1 message connection hmessage =>
        cases hreceive
        obtain ⟨rfl, hall, rfl⟩ := Connection.receive_of_isPrefix hreply
          (Passing.arriving_isPrefix _ _) hmessage
        refine ⟨rfl, ⟨Nat.lt_of_lt_of_le h.present hserved.channels, ?_, rfl, ?_⟩,
          hresting.handled_eq, hresting.phase_ne_closed⟩
        · rw [hresting.written_eq, hresting.handled_eq]
          exact hresting.mono fun _ => trivial
        · show link.arrived + (turn.toPassing.arriving (Frame.frame text)).length = _
          rw [hresting.written_eq, Responder.framesOf_append_singleton (horder.written_fits _) hreply,
            h.arrived, List.length_append, hall]

/-- While nothing is asked, a connection stays at rest. -/
theorem attend (h : link.IsAtRest server) (horder : server.IsInOrder) (handler : Handler σ)
    (events : List ServerEvent) :
    link.IsAtRest (server.attend handler link.channel events) ∧
      ((server.attend handler link.channel events).dialogue link.channel).handled
        = (server.dialogue link.channel).handled := by
  have hresting := horder.attend_resting handler h.resting events fun _ => trivial
  refine ⟨⟨?_, ?_, h.connection, ?_⟩, hresting.handled_eq⟩
  · exact Nat.lt_of_lt_of_le h.present (Server.Extends.advance server _).channels
  · rw [hresting.written_eq, hresting.handled_eq]
    exact hresting
  · rw [hresting.written_eq]
    exact h.arrived

end IsAtRest

/-! ## §3. Asking -/

/-- The server after a request was sent and as much time has passed as the turn gives. -/
def served (handler : Handler σ) (turn : Turn) (name : String) (link : Link) (server : Server σ) :
    Server σ :=
  (server.advance handler [.arrive link.channel (Frame.frame name)]).attend handler link.channel
    turn.meanwhile

/-- A request that fits is sent as a whole, and after the turn its answer is looked for. -/
theorem request_of_fits (hname : Frame.Fits name) (hwhole : turn.breakage = none) (link : Link)
    (server : Server σ) :
    link.request handler turn name server
      = (link.receive turn (link.served handler turn name server),
        link.served handler turn name server) := by
  have hsend : link.send handler turn name server
      = (.ok (), server.advance handler [.arrive link.channel (Frame.frame name)]) := by
    unfold send
    rw [Frame.encode_of_fits hname, hwhole]
  unfold request
  rw [hsend]
  rfl

/-- A request that does not fit is refused, and the server learns nothing of it. -/
theorem request_of_not_fits (hname : ¬ Frame.Fits name) (turn : Turn) (link : Link)
    (server : Server σ) :
    link.request handler turn name server
      = (.error (.frameTooLarge name.utf8ByteSize), server) := by
  have hsend : link.send handler turn name server
      = (.error (.frameTooLarge name.utf8ByteSize), server) := by
    unfold send Frame.encode
    rw [if_pos (Nat.lt_of_not_le hname)]
  unfold request
  rw [hsend]

/-- A reply that was written since is received if nothing disturbs it. -/
theorem receive_of_written_append {link : Link} {before after : Server σ} {reply : String}
    (h : link.IsAtRest before) (horder : before.IsInOrder) (hreply : Frame.Fits reply)
    (hwritten : (after.dialogue link.channel).channel.written
      = (before.dialogue link.channel).channel.written ++ [reply])
    (hsmooth : turn.toPassing = .smooth) (hfault : turn.fault = none) :
    ∃ next, link.receive turn after = .ok (reply, next) := by
  have harriving : link.arriving turn after = Frame.frame reply := by
    rw [h.arriving_of_written_append horder hreply hwritten, hsmooth]
    rfl
  have hmessage : Connection.receive ⟨Frame.frame reply⟩ = .ok (reply, ⟨[]⟩) := by
    have hread := Frame.read_frame_append hreply []
    rw [List.append_nil] at hread
    unfold Connection.receive
    simp only [hread]
  unfold receive
  simp only [hfault, h.connection, harriving, List.nil_append, hmessage]
  exact ⟨_, rfl⟩

/-- Without a reply there is only the end of the connection to be found. -/
theorem receive_of_written_eq {link : Link} {before after : Server σ} (h : link.IsAtRest before)
    (hwritten : (after.dialogue link.channel).channel.written
      = (before.dialogue link.channel).channel.written) (hfault : turn.fault = none) :
    link.receive turn after = .error .connectionClosed := by
  unfold receive
  simp only [hfault, h.connection, h.arriving_of_written_eq hwritten, List.nil_append,
    Connection.receive_nil]

/-- An answer comes only if the request was sent as a whole. -/
theorem of_request_eq_ok {link next : Link} {server after : Server σ}
    (h : link.request handler turn name server = (.ok (text, next), after)) :
    Frame.Fits name ∧ after = link.served handler turn name server ∧
      link.receive turn after = .ok (text, next) := by
  by_cases hname : Frame.Fits name
  · cases hbreakage : turn.breakage with
    | none =>
      rw [request_of_fits hname hbreakage] at h
      obtain ⟨hreceive, rfl⟩ := Prod.mk.inj h
      exact ⟨hname, rfl, hreceive⟩
    | some breakage =>
      unfold request send at h
      rw [Frame.encode_of_fits hname, hbreakage] at h
      cases h
  · rw [request_of_not_fits hname] at h
    cases h

/-- While a request is served, nothing that was there goes away. -/
theorem served_grown (handler : Handler σ) (turn : Turn) (name : String) (link : Link)
    (server : Server σ) : server.Extends (link.served handler turn name server) :=
  (Server.Extends.advance _ _).trans (.advance _ _)

/-- A request that was sent on a connection at rest is somewhere on its way then, unless the connection is
lost or the server stops. -/
theorem IsAtRest.served_exchange {link : Link} {server : Server σ} (h : link.IsAtRest server)
    (horder : server.IsInOrder) (handler : Handler σ) (turn : Turn) (hname : Frame.Fits name)
    (lost : Prop) (hopen : (server.dialogue link.channel).channel.phase = .closed → lost)
    (hlost : .lose link.channel ∈ turn.meanwhile → lost) :
    ((link.served handler turn name server).dialogue link.channel).Exchange link.channel
      (server.dialogue link.channel).channel.written (server.dialogue link.channel).handled name
      (lost ∨ (link.served handler turn name server).failure ≠ none) :=
  (horder.advance _).attend_exchange handler hname
    (Server.arrive_exchange (h.resting.of_open hopen) h.present handler name) turn.meanwhile hlost

/-! ## §4. All that happens to the server -/

theorem send_becomes (handler : Handler σ) (turn : Turn) (name : String) (link : Link)
    (server : Server σ) :
    server.Becomes handler (link.send handler turn name server).2 := by
  unfold send
  split
  · exact .refl server
  · split <;> exact .advance server _

/-- To the server, a request is some more events. -/
theorem request_becomes (handler : Handler σ) (turn : Turn) (name : String) (link : Link)
    (server : Server σ) :
    server.Becomes handler (link.request handler turn name server).2 := by
  have hsend := send_becomes handler turn name link server
  unfold request
  split
  case h_1 hsent =>
    rw [hsent] at hsend
    exact hsend
  case h_2 hsent =>
    rw [hsent] at hsend
    exact hsend.trans (.advance _ _)

end Link

namespace Remote

variable {remote after : Remote σ}

theorem channel_of_link_eq_some {link : Link} (h : remote.link = some link) :
    remote.channel = link.channel := by
  unfold channel
  rw [h]

theorem channel_of_link_eq_none (h : remote.link = none) :
    remote.channel = remote.server.channels.length := by
  unfold channel
  rw [h]

theorem rest_becomes (handler : Handler σ) (events : List ServerEvent) (remote : Remote σ) :
    remote.server.Becomes handler (remote.rest handler events).server := by
  unfold rest
  cases remote.link with
  | none => exact .advance _ events
  | some link => exact .advance _ _

theorem connect_becomes (handler : Handler σ) (turn : Turn) (remote : Remote σ) :
    remote.server.Becomes handler (remote.connect handler turn).2 := by
  unfold connect
  split
  · exact .refl _
  · split
    · exact .refl _
    · exact .advance _ _

/-- To the server, a fetch is some more events. -/
theorem fetch_becomes (handler : Handler σ) (turn : Turn) (name : String) (remote : Remote σ) :
    remote.server.Becomes handler (remote.fetch handler turn name).2.server := by
  have hrest := rest_becomes handler turn.before remote
  have hconnect := connect_becomes handler turn (remote.rest handler turn.before)
  unfold fetch
  split
  case h_1 hopened =>
    rw [hopened] at hconnect
    exact hrest.trans hconnect
  case h_2 link server hopened =>
    rw [hopened] at hconnect
    have hrequest := Link.request_becomes handler turn name link server
    split
    case h_1 hasked =>
      rw [hasked] at hrequest
      exact (hrest.trans hconnect).trans hrequest
    case h_2 hasked =>
      rw [hasked] at hrequest
      exact ((hrest.trans hconnect).trans hrequest).trans (.advance _ _)

/-! ## §5. Fetches -/

/-- Requests and replies are in order at the server, and the connection that is kept is at rest. -/
structure IsSound (remote : Remote σ) : Prop where
  order : remote.server.IsInOrder
  atRest : ∀ link, remote.link = some link → link.IsAtRest remote.server

/-- The connection that is kept, if there is one, has not been closed by the server. -/
def IsOpen (remote : Remote σ) : Prop :=
  ∀ link, remote.link = some link →
    (remote.server.dialogue link.channel).channel.phase ≠ .closed

theorem IsSound.start (state : σ) : IsSound (Remote.start (.start state)) where
  order := Server.IsInOrder.start state
  atRest _ hlink := nomatch hlink

/-- While nothing is fetched, the connection that is kept stays at rest. -/
theorem IsSound.rest (h : remote.IsSound) (events : List ServerEvent) :
    (remote.rest handler events).IsSound := by
  refine ⟨(rest_becomes handler events remote).isInOrder h.order, fun link hlink => ?_⟩
  change remote.link = some link at hlink
  unfold Remote.rest
  rw [hlink]
  exact ((h.atRest link hlink).attend h.order handler events).1

/-- Nothing of its own has happened to the connection for the next request while nothing was asked. -/
theorem IsSound.handled_rest (h : remote.IsSound) (events : List ServerEvent) :
    ((remote.rest handler events).server.dialogue (remote.rest handler events).channel).handled
      = (remote.server.dialogue (remote.rest handler events).channel).handled := by
  cases hlink : remote.link with
  | some link =>
    have hchannel : (remote.rest handler events).channel = link.channel :=
      channel_of_link_eq_some hlink
    have hserver : (remote.rest handler events).server
        = remote.server.attend handler link.channel events := by
      simp only [Remote.rest, hlink]
    rw [hchannel, hserver]
    exact ((h.atRest link hlink).attend h.order handler events).2
  | none =>
    -- the connection is a new one, so nothing has happened to it at either time
    have hchannel : (remote.rest handler events).channel
        = (remote.rest handler events).server.channels.length := channel_of_link_eq_none hlink
    have hgrown := (rest_becomes handler events remote).grown.channels
    rw [hchannel, (h.rest events).order.dialogue_of_absent (Nat.le_refl _),
      h.order.dialogue_of_absent hgrown]

/-- The connection for a request is at rest, and open if it is new or the one that was kept is. -/
theorem IsSound.connect_eq_ok (h : remote.IsSound) {link : Link} {server : Server σ}
    (hconnect : remote.connect handler turn = (.ok link, server)) :
    link.channel = remote.channel ∧ server.IsInOrder ∧ link.IsAtRest server ∧
      (server.dialogue link.channel).handled = (remote.server.dialogue link.channel).handled ∧
      (remote.IsOpen → (server.dialogue link.channel).channel.phase ≠ .closed) := by
  have horder : server.IsInOrder := by
    have hbecomes := connect_becomes handler turn remote
    rw [hconnect] at hbecomes
    exact hbecomes.isInOrder h.order
  unfold connect at hconnect
  split at hconnect
  case h_1 kept hkept =>
    cases hconnect
    exact ⟨(channel_of_link_eq_some hkept).symm, horder, h.atRest link hkept, rfl,
      fun hopen => hopen link hkept⟩
  case h_2 hnone =>
    split at hconnect
    case h_1 => cases hconnect
    case h_2 connection hopened =>
      cases hconnect
      -- a new connection is at rest, as nothing has happened on it
      have hresting := h.order.accept_resting handler
      have hconnection : connection = ⟨[]⟩ := by
        unfold Connection.opened at hopened
        split at hopened <;> cases hopened
        rfl
      have hpresent : remote.server.channels.length
          < (remote.server.advance handler [.accept]).channels.length := by
        show _ < (remote.server.channels ++ [Channel.fresh]).length
        simp
      refine ⟨(channel_of_link_eq_none hnone).symm, horder, ⟨hpresent, ?_, hconnection, ?_⟩, ?_,
        fun _ => ?_⟩
      · rw [hresting.written_eq, hresting.handled_eq]
        exact hresting.mono False.elim
      · rw [hresting.written_eq]
        rfl
      · rw [hresting.handled_eq, h.order.dialogue_of_absent (Nat.le_refl _)]
      · exact hresting.phase_ne_closed id

/-- What is received is the reply to the request, and the connection is kept, at rest. -/
theorem IsSound.fetch_eq_ok (h : remote.IsSound)
    (hfetch : remote.fetch handler turn name = (.ok text, after)) :
    ∃ link, after.link = some link ∧
      link.channel = (remote.rest handler turn.before).channel ∧ link.IsAtRest after.server ∧
      (after.server.dialogue link.channel).handled
        = (remote.server.dialogue link.channel).handled ++ [⟨link.channel, name, .ok text⟩] := by
  unfold fetch at hfetch
  split at hfetch
  case h_1 => cases hfetch
  case h_2 opened server hconnect =>
    obtain ⟨hchannel, horder, hrest, hhandled, -⟩ := (h.rest turn.before).connect_eq_ok hconnect
    split at hfetch
    case h_2 => cases hfetch
    case h_1 reply link served hrequest =>
      cases hfetch
      obtain ⟨hname, rfl, hreceive⟩ := Link.of_request_eq_ok hrequest
      -- whether something is lost on the way does not matter: an answer has come
      have hexchange := hrest.served_exchange horder handler turn hname True
        (fun _ => trivial) fun _ => trivial
      obtain ⟨hsame, hrest', hanswered, -⟩ :=
        hrest.receive_eq_ok horder (Link.served_grown handler turn name opened server) hexchange
          hreceive
      refine ⟨link, rfl, hsame.trans hchannel, hrest', ?_⟩
      show ((opened.served handler turn name server).dialogue link.channel).handled = _
      rw [hsame, hanswered, hhandled, hchannel, h.handled_rest]

/-- A fetch that fails keeps no connection. -/
theorem link_of_fetch_eq_error {cause : Error}
    (hfetch : remote.fetch handler turn name = (.error cause, after)) : after.link = none := by
  unfold fetch at hfetch
  split at hfetch
  case h_1 =>
    cases hfetch
    rfl
  case h_2 =>
    split at hfetch
    case h_1 => cases hfetch
    case h_2 =>
      cases hfetch
      rfl

/-- Whatever happens around a fetch, no request without an answer is left on a connection that is kept. -/
theorem IsSound.fetch (h : remote.IsSound) (handler : Handler σ) (turn : Turn) (name : String) :
    (remote.fetch handler turn name).2.IsSound := by
  refine ⟨(fetch_becomes handler turn name remote).isInOrder h.order, fun link hlink => ?_⟩
  cases hfetch : remote.fetch handler turn name with
  | mk outcome after =>
    rw [hfetch] at hlink
    cases outcome with
    | error cause => cases hlink.symm.trans (link_of_fetch_eq_error hfetch)
    | ok reply =>
      obtain ⟨link', hkept, -, hrest, -⟩ := h.fetch_eq_ok hfetch
      cases hlink.symm.trans hkept
      exact hrest

/-! ## §6. While the server stays up -/

/-- Around a fetch the server stays up: neither the system nor the server closes the connection or keeps it
from being opened, the handler does not fail, and the server comes to be done with the request. -/
structure StaysUp (handler : Handler σ) (turn : Turn) (name : String) (remote : Remote σ) : Prop where
  smooth : turn.toPassing = .smooth
  sending : turn.breakage = none
  receiving : turn.fault = none
  kept : ∀ link, remote.link = some link → .lose link.channel ∉ turn.before
  asked : .lose (remote.rest handler turn.before).channel ∉ turn.meanwhile
  running : (remote.fetch handler turn name).2.server.failure = none
  done : ((remote.fetch handler turn name).2.server.dialogue
    (remote.rest handler turn.before).channel).IsIdle

/-- While nothing is fetched, the connection that is kept stays open unless it is lost. -/
theorem IsOpen.rest (hopen : remote.IsOpen) (h : remote.IsSound) {events : List ServerEvent}
    (hkept : ∀ link, remote.link = some link → .lose link.channel ∉ events) :
    (remote.rest handler events).IsOpen := by
  intro link hlink
  change remote.link = some link at hlink
  unfold Remote.rest
  rw [hlink]
  have hresting := h.order.attend_resting handler
    ((h.atRest link hlink).resting.of_open (hopen link hlink)) events (hkept link hlink)
  exact hresting.phase_ne_closed id

/-- Where the system does not interfere, there is a connection for the request. -/
theorem exists_connect (hsmooth : turn.toPassing = .smooth) (handler : Handler σ)
    (remote : Remote σ) :
    ∃ link server, remote.connect handler turn = (.ok link, server) := by
  unfold connect Connection.opened
  rw [hsmooth]
  cases remote.link with
  | some link => exact ⟨link, _, rfl⟩
  | none => exact ⟨_, _, rfl⟩

variable {link next : Link} {server : Server σ}

/-- A fetch that receives a reply gives it and keeps the connection. -/
theorem fetch_of_receive_eq_ok {reply : String}
    (hconnect : (remote.rest handler turn.before).connect handler turn = (.ok link, server))
    (hname : Frame.Fits name) (hsending : turn.breakage = none)
    (hreceive : link.receive turn (link.served handler turn name server) = .ok (reply, next)) :
    remote.fetch handler turn name
      = (.ok reply, ⟨link.served handler turn name server, some next⟩) := by
  unfold fetch
  simp only [hconnect, Link.request_of_fits hname hsending, hreceive]

/-- A fetch that cannot receive a reply fails for the same cause and drops the connection. -/
theorem fetch_of_receive_eq_error {cause : Error}
    (hconnect : (remote.rest handler turn.before).connect handler turn = (.ok link, server))
    (hname : Frame.Fits name) (hsending : turn.breakage = none)
    (hreceive : link.receive turn (link.served handler turn name server) = .error cause) :
    remote.fetch handler turn name
      = (.error cause, ⟨(link.served handler turn name server).advance handler
          [.finish link.channel], none⟩) := by
  unfold fetch
  simp only [hconnect, Link.request_of_fits hname hsending, hreceive]

theorem fetch_of_not_fits
    (hconnect : (remote.rest handler turn.before).connect handler turn = (.ok link, server))
    (hname : ¬ Frame.Fits name) :
    remote.fetch handler turn name
      = (.error (.frameTooLarge name.utf8ByteSize),
        ⟨server.advance handler [.finish link.channel], none⟩) := by
  unfold fetch
  simp only [hconnect, Link.request_of_not_fits hname]

/-- After the answer was looked for, a fetch ends the stream of the connection at most. -/
theorem fetch_keeps
    (hconnect : (remote.rest handler turn.before).connect handler turn = (.ok link, server))
    (hname : Frame.Fits name) (hsending : turn.breakage = none) :
    (link.served handler turn name server).ChangesOnly link.channel
        (remote.fetch handler turn name).2.server ∧
      (((remote.fetch handler turn name).2.server.dialogue link.channel).IsIdle ↔
        ((link.served handler turn name server).dialogue link.channel).IsIdle) := by
  cases hreceive : link.receive turn (link.served handler turn name server) with
  | ok received =>
    obtain ⟨reply, next⟩ := received
    rw [fetch_of_receive_eq_ok hconnect hname hsending hreceive]
    exact ⟨.refl _ _, Iff.rfl⟩
  | error cause =>
    rw [fetch_of_receive_eq_error hconnect hname hsending hreceive]
    exact Server.advance_finish handler _ link.channel

/-- While the server stays up, a request that fits goes to the handler, and what the handler says comes back
if that fits too; otherwise the fetch fails. -/
theorem IsSound.fetch_of_staysUp (h : remote.IsSound) (hopen : remote.IsOpen)
    (hup : remote.StaysUp handler turn name) :
    (remote.fetch handler turn name).2.IsOpen ∧
      (¬ Frame.Fits name →
        (remote.fetch handler turn name).1 = .error (.frameTooLarge name.utf8ByteSize)) ∧
      (Frame.Fits name → ∃ reply,
        let k := (remote.rest handler turn.before).channel
        ((remote.fetch handler turn name).2.server.dialogue k).handled
            = (remote.server.dialogue k).handled ++ [⟨k, name, .ok reply⟩] ∧
          (remote.fetch handler turn name).1
            = if Frame.Fits reply then .ok reply else .error .connectionClosed) := by
  obtain ⟨link, server, hconnect⟩ :=
    exists_connect hup.smooth handler (remote.rest handler turn.before)
  obtain ⟨hchannel, horder, hrest, hhandled, hstill⟩ := (h.rest turn.before).connect_eq_ok hconnect
  by_cases hname : Frame.Fits name
  · obtain ⟨honly, hidle⟩ := fetch_keeps hconnect hname hup.sending
    have hrunning := honly.failure_eq.symm.trans hup.running
    have hsame := honly.handled_eq link.channel
    have hexchange := hrest.served_exchange horder handler turn hname False
      (hstill (hopen.rest h hup.kept)) (by rw [hchannel]; exact hup.asked)
    -- nothing is lost, and the server is done with the request: it was handled
    have hwhole : ¬ (False ∨ (link.served handler turn name server).failure ≠ none) :=
      fun hbroken => hbroken.elim id fun hstopped => hstopped hrunning
    obtain ⟨reply, hanswered, hwritten⟩ := hexchange.of_isIdle
      (hidle.mp (by rw [hchannel]; exact hup.done)) hwhole
    have hbefore : (server.dialogue link.channel).handled
        = (remote.server.dialogue link.channel).handled := by
      rw [hhandled, hchannel, h.handled_rest]
    rw [hbefore] at hanswered
    rw [← hchannel]
    rcases hwritten with ⟨hreply, hresting⟩ | ⟨hlarge, hnone⟩
    · obtain ⟨next, hreceive⟩ := Link.receive_of_written_append hrest horder hreply
        hresting.written_eq hup.smooth hup.receiving
      have hfetch := fetch_of_receive_eq_ok hconnect hname hup.sending hreceive
      refine ⟨fun kept hkept => ?_, absurd hname, fun _ => ⟨reply, hsame.trans hanswered, ?_⟩⟩
      · rw [hfetch] at hkept ⊢
        obtain ⟨hsame, -⟩ := hrest.receive_eq_ok horder
          (Link.served_grown handler turn name link server) hexchange hreceive
        cases hkept
        rw [hsame]
        exact hresting.phase_ne_closed hwhole
      · rw [hfetch, if_pos hreply]
    · have hreceive := Link.receive_of_written_eq hrest hnone hup.receiving
      have hfetch := fetch_of_receive_eq_error hconnect hname hup.sending hreceive
      refine ⟨fun kept hkept => ?_, absurd hname, fun _ => ⟨reply, hsame.trans hanswered, ?_⟩⟩
      · rw [hfetch] at hkept
        cases hkept
      · rw [hfetch, if_neg hlarge]
  · have hfetch := fetch_of_not_fits hconnect hname
    refine ⟨fun kept hkept => ?_, fun _ => by rw [hfetch], fun hfits => absurd hfits hname⟩
    rw [hfetch] at hkept
    cases hkept

end Remote

end CsvQuery

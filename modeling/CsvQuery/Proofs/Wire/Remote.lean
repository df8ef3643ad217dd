/-
  CsvQuery.Proofs.Wire.Remote — fetching from a storage role as from a storage.

  Over any fetches, whatever happens around them, each brings the reply to its own request or fails.  While
  the role stays up only the size of a name or of a reply can make a fetch fail.  So a query server for which
  the files and their names are small enough cannot tell the role from a storage of its own: not if others
  use the role too, as long as the files stay as they are, and not if the files change, as long as nobody
  else uses it.

  Main results:
    • `IsSound.after` — what all fetches keep
    • `answersLike_of_staysUp`, `answersLike_promptly` — the role and a storage answer alike
    • `fetches_bring_own_replies` — replies, failures, and query servers
-/
import CsvQuery.Proofs.Wire.Isolation
import CsvQuery.Proofs.Wire.Prompt

namespace CsvQuery

variable {σ τ : Type}

/-! ## §1. Storages within the limit -/

namespace Storage

variable {directory : Directory} {storage : Storage}

theorem answers_fetch : Handler.Answers source.fetch := fun request storage =>
  ⟨(storage.answer request).1, (storage.answer request).2, rfl⟩

/-- Over an unchanging directory a storage answers every name with what stands there. -/
theorem isSteady_fetch (directory : Directory) :
    Handler.IsSteady source.fetch (IsTransparent directory) directory.content := by
  intro storage hstorage request
  obtain ⟨hreply, hafter⟩ := hstorage.answer request
  refine ⟨(storage.answer request).2, ?_, hafter⟩
  rw [← hreply]
  rfl

/-- Every text that the storage can answer with fits into a frame. -/
structure IsWithinLimit (storage : Storage) : Prop where
  directory : ∀ name, Frame.Fits (storage.directory.content name)
  cache : ∀ entry ∈ storage.cache.entries, Frame.Fits entry.2

/-- A storage all of whose texts fit answers with a text that fits, and stays so. -/
theorem IsWithinLimit.answer (h : storage.IsWithinLimit) (name : String) :
    Frame.Fits (storage.answer name).1 ∧ (storage.answer name).2.IsWithinLimit := by
  cases hcached : storage.cache.get? (FileName.sanitize name) with
  | some text =>
    rw [answer_of_cached hcached]
    exact ⟨h.cache _ (FifoCache.mem_entries_of_get? hcached), h⟩
  | none =>
    have hcontent := h.directory name
    unfold Directory.content at hcontent
    cases hread : storage.directory.readText (FileName.sanitize name) with
    | error fault =>
      rw [hread] at hcontent
      rw [answer_of_unreadable hcached hread]
      exact ⟨hcontent, h⟩
    | ok text =>
      rw [hread] at hcontent
      rw [answer_of_readable hcached hread]
      refine ⟨hcontent, h.directory, fun entry hentry => ?_⟩
      rcases FifoCache.mem_insert hcached hentry with rfl | hold
      · exact hcontent
      · exact h.cache entry hold

end Storage

/-- All names that a line fetches fit into frames. -/
def IsSendable (line : String) : Prop :=
  ∀ command ∈ parse line, ∀ path, command.path? = some path → Frame.Fits path

/-! ## §2. All fetches -/

namespace Remote

variable {remote : Remote σ}

/-- The remote after fetches, each in a turn of its own. -/
def after (handler : Handler σ) (remote : Remote σ) (fetches : List (Turn × String)) : Remote σ :=
  fetches.foldl (fun remote fetch => (remote.fetch handler fetch.1 fetch.2).2) remote

theorem after_append_singleton (handler : Handler σ) (remote : Remote σ)
    (fetches : List (Turn × String)) (turn : Turn) (name : String) :
    remote.after handler (fetches ++ [(turn, name)])
      = ((remote.after handler fetches).fetch handler turn name).2 :=
  List.foldl_append

/-- After any fetches no request is left without an answer on the connection that is kept. -/
theorem IsSound.after (h : remote.IsSound) (handler : Handler σ) (fetches : List (Turn × String)) :
    (remote.after handler fetches).IsSound := by
  induction fetches generalizing remote with
  | nil => exact h
  | cons fetch fetches ih => exact ih (h.fetch handler fetch.1 fetch.2)

theorem after_becomes (handler : Handler σ) (remote : Remote σ) (fetches : List (Turn × String)) :
    remote.server.Becomes handler (remote.after handler fetches).server := by
  induction fetches generalizing remote with
  | nil => exact .refl _
  | cons fetch fetches ih => exact (fetch_becomes handler fetch.1 fetch.2 remote).trans (ih _)

/-- A connection that is opened was not there before. -/
theorem le_channel_of_link_eq_none (hnone : remote.link = none) (handler : Handler σ)
    (events : List ServerEvent) :
    remote.server.channels.length ≤ (remote.rest handler events).channel := by
  have hchannel : (remote.rest handler events).channel
      = (remote.rest handler events).server.channels.length := channel_of_link_eq_none hnone
  rw [hchannel]
  exact (rest_becomes handler events remote).grown.channels

/-- What is handled in the course of a fetch, the own request among it. -/
theorem IsSound.exists_handled (h : remote.IsSound) (handler : Handler σ) (turn : Turn)
    (name : String) :
    ∃ handled,
      (remote.fetch handler turn name).2.server.journal = remote.server.journal ++ handled ∧
      handler.replay remote.server.state (handled.map Handled.request)
        = (handled.map Handled.outcome, (remote.fetch handler turn name).2.server.state) ∧
      (∀ text, (remote.fetch handler turn name).1 = .ok text →
        let k := (remote.rest handler turn.before).channel
        Server.handledOf handled k = [⟨k, name, .ok text⟩] ∧
          ∃ link, (remote.fetch handler turn name).2.link = some link ∧ link.channel = k) ∧
      (remote.IsOpen → remote.StaysUp handler turn name →
        let k := (remote.rest handler turn.before).channel
        (remote.fetch handler turn name).2.IsOpen ∧
          (¬ Frame.Fits name →
            (remote.fetch handler turn name).1 = .error (.frameTooLarge name.utf8ByteSize)) ∧
          (Frame.Fits name → ∃ reply, Server.handledOf handled k = [⟨k, name, .ok reply⟩] ∧
            (remote.fetch handler turn name).1
              = if Frame.Fits reply then .ok reply else .error .connectionClosed)) := by
  obtain ⟨handled, hjournal, hreplay⟩ := (fetch_becomes handler turn name remote).exists_entries
  refine ⟨handled, hjournal, hreplay, fun text htext => ?_, fun hopen hup => ?_⟩
  · obtain ⟨link, hlink, hchannel, -, hown⟩ := h.fetch_eq_ok (Prod.ext htext rfl)
    rw [hchannel] at hown
    exact ⟨Server.Becomes.handledOf_entries hjournal hown, link, hlink, hchannel⟩
  · obtain ⟨hopen', hlarge, hfits⟩ := h.fetch_of_staysUp hopen hup
    refine ⟨hopen', hlarge, fun hname => ?_⟩
    obtain ⟨reply, hown, houtcome⟩ := hfits hname
    exact ⟨reply, Server.Becomes.handledOf_entries hjournal hown, houtcome⟩

/-- While the server stays up, a handler that always answers in the same way is heard to do so, whoever else
asks it. -/
theorem IsSound.fetch_of_steady {handler : Handler σ} {kept : σ → Prop} {reply : String → String}
    {turn : Turn} {name : String} (h : remote.IsSound) (hopen : remote.IsOpen)
    (hup : remote.StaysUp handler turn name) (hsteady : handler.IsSteady kept reply)
    (hkept : kept remote.server.state) (hname : Frame.Fits name) :
    (remote.fetch handler turn name).1
        = (if Frame.Fits (reply name) then .ok (reply name) else .error .connectionClosed) ∧
      kept (remote.fetch handler turn name).2.server.state := by
  obtain ⟨-, -, hfetch⟩ := h.fetch_of_staysUp hopen hup
  obtain ⟨own, hhandled, houtcome⟩ := hfetch hname
  obtain ⟨entries, hjournal, hreplay⟩ := (fetch_becomes handler turn name remote).exists_entries
  obtain ⟨after, hall, hafter⟩ := hsteady.replay hkept (entries.map Handled.request)
  rw [hreplay, List.map_map] at hall
  obtain ⟨hsaid, hstate⟩ := Prod.mk.inj hall
  -- all that was handled was answered in this way, the own request too
  have hmem : ⟨(remote.rest handler turn.before).channel, name, .ok own⟩ ∈ entries := by
    have hown := Server.Becomes.handledOf_entries hjournal hhandled
    exact (List.mem_filter.mp (hown ▸ List.mem_singleton_self _)).1
  obtain rfl : own = reply name := Except.ok.inj (List.map_inj_left.mp hsaid _ hmem)
  exact ⟨houtcome, hstate ▸ hafter⟩

/-! ## §3. Query servers -/

/-- While the role stays up, what it answers with is what stands in its directory, whoever else asks. -/
theorem answersLike_of_staysUp {directory : Directory} {schedule : String → Remote Storage → Turn}
    {initial : Remote Storage} (hinitial : initial.IsSound)
    (hup : ∀ past name, (initial.after Storage.source.fetch past).IsOpen →
      (initial.after Storage.source.fetch past).StaysUp Storage.source.fetch
        (schedule name (initial.after Storage.source.fetch past)) name)
    (hfiles : ∀ name, Frame.Fits (directory.content name)) :
    (scheduled Storage.source.fetch schedule).AnswersLike Storage.source Frame.Fits
      fun remote storage => (∃ past, remote = initial.after Storage.source.fetch past) ∧
        remote.IsOpen ∧ Storage.IsTransparent directory remote.server.state ∧
          Storage.IsTransparent directory storage := by
  rintro remote storage ⟨⟨past, rfl⟩, hopen, hrole, hstorage⟩ name hname
  have hsound := hinitial.after Storage.source.fetch past
  have hstays := hup past name hopen
  obtain ⟨hreply, hrole'⟩ := hsound.fetch_of_steady hopen hstays
    (Storage.isSteady_fetch directory) hrole hname
  -- both say what stands in the directory
  obtain ⟨hanswer, hstorage'⟩ := hstorage.answer name
  rw [if_pos (hfiles name), ← hanswer] at hreply
  have hopen' := (hsound.fetch_of_staysUp hopen hstays).1
  let turn := schedule name (initial.after Storage.source.fetch past)
  refine ⟨hreply, ⟨past ++ [(turn, name)], ?_⟩, hopen', hrole', hstorage'⟩
  exact (after_append_singleton Storage.source.fetch initial past _ name).symm

/-- A prompt role with nothing else to do answers as a storage does that is in the same state. -/
theorem answersLike_promptly :
    (source Storage.source.fetch .smooth).AnswersLike Storage.source Frame.Fits
      fun remote storage => remote.IsQuiet ∧ remote.server.state = storage ∧
        storage.IsWithinLimit := by
  rintro remote storage ⟨hquiet, rfl, hlimit⟩ name hname
  obtain ⟨reply, hhandler, hreply, hquiet'⟩ :=
    hquiet.fetch_promptly Storage.answers_fetch hname
  obtain ⟨hanswered, hstate⟩ := Prod.mk.inj hhandler
  obtain ⟨hfits, hlimit'⟩ := hlimit.answer name
  have hsame : (remote.server.state.answer name).1 = reply := Except.ok.inj hanswered
  rw [hsame] at hfits
  rw [if_pos hfits, ← hsame] at hreply
  exact ⟨hreply, hquiet', hstate.symm, hlimit'⟩

/-- Handlers that answer alike, from states that are related and stay so, answer whole lists alike. -/
theorem replay_of_related {handler : Handler σ} {other : Handler τ} {related : σ → τ → Prop}
    {requests : List String} {state : σ} {state' : τ}
    (hstep : ∀ request ∈ requests, ∀ state state', related state state' →
      ((handler request).outcome state).1 = ((other request).outcome state').1 ∧
        related ((handler request).outcome state).2 ((other request).outcome state').2)
    (hstate : related state state') :
    (handler.replay state requests).1 = (other.replay state' requests).1 := by
  induction requests generalizing state state' with
  | nil => rfl
  | cons request requests ih =>
    obtain ⟨hsame, hnext⟩ := hstep request List.mem_cons_self state state' hstate
    show ((handler request).outcome state).1 :: (handler.replay _ requests).1
      = ((other request).outcome state').1 :: (other.replay _ requests).1
    exact congrArg₂ List.cons hsame
      (ih (fun later hlater => hstep later (List.mem_cons_of_mem _ hlater)) hnext)

/-- The remote with the server in another state, as if it had come to it without a request. -/
def holding (remote : Remote σ) (state : σ) : Remote σ :=
  { remote with server := { remote.server with state } }

theorem IsQuiet.holding (h : remote.IsQuiet) (state : σ) : (remote.holding state).IsQuiet where
  sound := ⟨h.sound.order, fun link hlink =>
    have hrest := h.sound.atRest link hlink
    ⟨hrest.present, hrest.resting, hrest.connection, hrest.arrived⟩⟩
  isOpen := h.isOpen
  running := h.running
  queue := h.queue

/-- Over any fetches, whatever goes on at the server and whatever the system does around each:
* on a connection that is kept there is no request without an answer and no answer that was not read;
* a fetch that fails keeps no connection, and after that a new one is opened;
* a fetch brings what the handler answers in its course to this one request on this connection;
* while the server stays up, a fetch fails exactly if the name or the reply is too large for a frame, and
  the connection is open then or a new one will be; a prompt server with a handler that always answers
  does stay up.

So a query server answers as one over a storage of its own does, if all files and names are small enough:
with an unchanging directory, whatever else is asked of the role and in whatever order things happen, and
with a prompt role of which nothing else is asked, whatever becomes of the files. -/
theorem fetches_bring_own_replies :
    (∀ (σ : Type) (handler : Handler σ) (initial : σ) (past : List (Turn × String)) (turn : Turn)
        (name : String),
      let remote := (start (.start initial)).after handler past
      let k := (remote.rest handler turn.before).channel
      let outcome := (remote.fetch handler turn name).1
      let next := (remote.fetch handler turn name).2
      (∀ link, remote.link = some link →
        (remote.server.dialogue link.channel).IsIdle ∧ link.connection = ⟨[]⟩ ∧
          link.arrived = (Responder.framesOf (remote.server.written link.channel)).length) ∧
      ((∃ cause, outcome = .error cause) → next.link = none ∧ next.IsOpen) ∧
      (remote.link = none → remote.server.channels.length ≤ k) ∧
      (∃ handled, next.server.journal = remote.server.journal ++ handled ∧
        handler.replay remote.server.state (handled.map Handled.request)
          = (handled.map Handled.outcome, next.server.state) ∧
        (∀ text, outcome = .ok text → Server.handledOf handled k = [⟨k, name, .ok text⟩] ∧
          ∃ link, next.link = some link ∧ link.channel = k) ∧
        (remote.IsOpen → remote.StaysUp handler turn name → next.IsOpen ∧
          (¬ Frame.Fits name → outcome = .error (.frameTooLarge name.utf8ByteSize)) ∧
          (Frame.Fits name → ∃ reply, Server.handledOf handled k = [⟨k, name, .ok reply⟩] ∧
            outcome = if Frame.Fits reply then .ok reply else .error .connectionClosed))) ∧
      (handler.Answers → remote.IsOpen →
        remote.StaysUp handler (remote.promptly .smooth) name)) ∧
    (∀ (directory : Directory) (capacity capacity' : Nat) (strategy : JoinStrategy)
        (schedule : String → Remote Storage → Turn) (lines : List String),
      let role := start (.start (Storage.start directory capacity))
      (∀ past name, (role.after Storage.source.fetch past).IsOpen →
        (role.after Storage.source.fetch past).StaysUp Storage.source.fetch
          (schedule name (role.after Storage.source.fetch past)) name) →
      (∀ name, Frame.Fits (directory.content name)) → (∀ line ∈ lines, IsSendable line) →
      (Handler.replay (answer (scheduled Storage.source.fetch schedule) strategy) role lines).1
        = (Handler.replay (answer Storage.source strategy) (Storage.start directory capacity')
          lines).1) ∧
    (∀ storage : Storage, (start (.start storage)).IsQuiet) ∧
    ∀ (strategy : JoinStrategy) (remote : Remote Storage) (storage : Storage) (line : String),
      remote.IsQuiet → storage.IsWithinLimit → IsSendable line →
      let asked := (answer (source Storage.source.fetch .smooth) strategy line).outcome
        (remote.holding storage)
      let own := (answer Storage.source strategy line).outcome storage
      asked.1 = own.1 ∧ asked.2.IsQuiet ∧ asked.2.server.state = own.2 ∧ own.2.IsWithinLimit := by
  refine ⟨?_, ?_, IsQuiet.start, ?_⟩
  · intro σ handler initial past turn name remote k outcome next
    have hsound : remote.IsSound := (IsSound.start initial).after handler past
    refine ⟨fun link hlink => ?_, ?_, ?_, ?_, ?_⟩
    · have hrest := hsound.atRest link hlink
      exact ⟨hrest.resting.isIdle, hrest.connection, hrest.arrived⟩
    · rintro ⟨cause, hcause⟩
      have hnone := link_of_fetch_eq_error (Prod.ext hcause rfl)
      exact ⟨hnone, fun link hlink => nomatch hnone.symm.trans hlink⟩
    · exact fun hnone => le_channel_of_link_eq_none hnone handler turn.before
    · exact hsound.exists_handled handler turn name
    · intro hanswers hopen
      have hbecomes := after_becomes handler (start (.start initial)) past
      exact IsReady.staysUp_promptly
        ⟨hsound, hopen, hbecomes.failure_of_answers hanswers rfl⟩ hanswers name
  · intro directory capacity capacity' strategy schedule lines role hup hfiles hlines
    have hlike := answersLike_of_staysUp (IsSound.start _) hup hfiles
    refine replay_of_related (fun line hline remote storage hrelated =>
      hlike.answer hrelated (hlines line hline) strategy) ?_
    -- the role starts with no connection and an empty cache
    exact ⟨⟨[], rfl⟩, (IsReady.start _).isOpen, .start directory capacity,
      .start directory capacity'⟩
  · intro strategy remote storage line hquiet hlimit hline asked own
    obtain ⟨hsame, hquiet', hstate, hlimit'⟩ := answersLike_promptly.answer
      ⟨hquiet.holding storage, rfl, hlimit⟩ hline strategy
    exact ⟨hsame, hquiet', hstate, hlimit'⟩

/-- A role with one file is asked for it, directly and by a query. -/
theorem fetches_bring_own_replies_one_file :
    let directory := Directory.empty.write "f" [97, 10, 49, 10]
    let role := start (.start (Storage.start directory 1))
    role.StaysUp Storage.source.fetch (role.promptly .smooth) "f" ∧
    (role.fetch Storage.source.fetch (role.promptly .smooth) "f").1 = .ok "a\n1\n" ∧
    (∃ handled,
      (role.fetch Storage.source.fetch (role.promptly .smooth) "f").2.server.journal = [] ++ handled ∧
      Server.handledOf handled 0 = [⟨0, "f", .ok "a\n1\n"⟩]) ∧
    (Handler.replay (answer (source Storage.source.fetch .smooth) .sortMerge) role ["from f"]).1
      = (Handler.replay (answer Storage.source .sortMerge) (Storage.start directory 0)
        ["from f"]).1 ∧
    ((answer (source Storage.source.fetch .smooth) .hash "from f").outcome
        (role.holding (Storage.start Directory.empty 1))).1
      = ((answer Storage.source .hash "from f").outcome (Storage.start Directory.empty 1)).1 := by
  intro directory role
  have hparse : parse "from f" = [.load "f"] := by decide +kernel
  have hline : IsSendable "from f" := by
    intro command hcommand path hpath
    rw [hparse] at hcommand
    obtain rfl := List.mem_singleton.mp hcommand
    cases hpath
    decide +kernel
  have hfiles : ∀ name, Frame.Fits (directory.content name) := fun name => by
    have hentries : directory.entries = [("f", .file [97, 10, 49, 10])] := rfl
    unfold Directory.content Directory.readText Directory.get?
    rw [hentries, List.lookup_cons]
    cases FileName.sanitize name == "f" with
    | true => exact (by decide +kernel : Frame.Fits "a\n1\n")
    | false => exact Nat.zero_le _
  have hfetch : (role.fetch Storage.source.fetch (role.promptly .smooth) "f").1 = .ok "a\n1\n" := by
    decide +kernel
  have hchannel : (role.rest Storage.source.fetch (role.promptly .smooth).before).channel = 0 := by
    decide +kernel
  obtain ⟨hfetches, hlines, hquiet, hqueries⟩ := fetches_bring_own_replies
  have hup : ∀ past name, (role.after Storage.source.fetch past).IsOpen →
      (role.after Storage.source.fetch past).StaysUp Storage.source.fetch
        ((role.after Storage.source.fetch past).promptly .smooth) name := fun past name hopen =>
    (hfetches Storage Storage.source.fetch _ past (role.promptly .smooth) name).2.2.2.2
      Storage.answers_fetch hopen
  obtain ⟨-, -, -, ⟨handled, hjournal, -, hown, -⟩, -⟩ :=
    hfetches Storage Storage.source.fetch _ [] (role.promptly .smooth) "f"
  have hnone : (start (.start (Storage.start directory 1))).after Storage.source.fetch [] = role := rfl
  rw [hnone] at hjournal hown
  have hhandled := (hown _ hfetch).1
  rw [hchannel] at hhandled
  have hempty : (Storage.start Directory.empty 1).IsWithinLimit :=
    ⟨fun _ => Nat.zero_le _, fun entry hentry => absurd hentry List.not_mem_nil⟩
  exact ⟨hup [] "f" (hquiet _).isOpen, hfetch, ⟨handled, hjournal, hhandled⟩,
    hlines directory 1 0 .sortMerge _ ["from f"] hup hfiles (List.forall_mem_singleton.mpr hline),
    (hqueries .hash role _ "from f" (hquiet _) hempty hline).1⟩

end Remote

end CsvQuery

/-
  CsvQuery.Proofs.Wire.Isolation — clients of a query server cannot influence each other's answers.

  All that outlives a query is the cache of the storage, and while the directory does not change the cache
  cannot be seen.  So the answer to a line is settled by the directory, and the server is a handler that
  always answers, and always in the same way.  With such a handler a server never stops, and what a client
  is sent hangs on its own stream only.

  Main results:
    • `answer_of_transparent` — the answer to a line, by the directory
    • `IsOrderly.of_steady` — all runs with a handler that always answers in the same way
    • `replies_of_fresh_server` — every reply is the one of a new server
-/
import CsvQuery.Proofs.Query.Run
import CsvQuery.Proofs.Storage.History
import CsvQuery.Proofs.Wire.Serve

namespace CsvQuery

/-! ## §1. Queries over an unchanging directory -/

namespace Directory

/-- What a directory has for what a command fetches. -/
def supply (directory : Directory) (command : Command) : String :=
  match command.path? with
  | some path => directory.content path
  | none => ""

/-- The table that commands make of a table with what a directory has. -/
def tableFrom (directory : Directory) (strategy : JoinStrategy) (table : Table)
    (commands : List Command) : Table :=
  commands.foldl (fun table command => command.effect strategy table (directory.supply command)) table

/-- The answer to a line with what a directory has. -/
def reply (directory : Directory) (strategy : JoinStrategy) (line : String) : String :=
  (directory.tableFrom strategy .empty (parse line)).toCsv

end Directory

namespace Storage

variable {directory : Directory} {storage : Storage}

/-- What a command fetches is what the directory has, and the cache stays out of sight. -/
theorem reply_of_transparent (h : IsTransparent directory storage) (command : Command) :
    ∃ after, command.reply source storage = (.ok (directory.supply command), after) ∧
      IsTransparent directory after := by
  unfold Command.reply Directory.supply
  cases command.path? with
  | none => exact ⟨storage, rfl, h⟩
  | some path =>
    obtain ⟨hreply, hafter⟩ := h.answer path
    refine ⟨(storage.answer path).2, ?_, hafter⟩
    show (source.fetch path).outcome storage = (.ok (directory.content path), _)
    rw [← hreply]
    rfl

/-- A run over an unchanging directory has the result that the directory alone gives, from any cache. -/
theorem outcome_runFrom_of_transparent (strategy : JoinStrategy) (table : Table)
    (commands : List Command) (h : IsTransparent directory storage) :
    ∃ after, (runFrom source strategy table commands).outcome storage
        = (.ok (directory.tableFrom strategy table commands), after) ∧
      IsTransparent directory after := by
  induction commands generalizing table storage with
  | nil => exact ⟨storage, rfl, h⟩
  | cons command commands ih =>
    obtain ⟨next, hreply, hnext⟩ := reply_of_transparent h command
    rw [outcome_runFrom_cons, hreply]
    exact ih _ hnext

/-- A line is answered with what the directory has, and the cache stays out of sight. -/
theorem answer_of_transparent (strategy : JoinStrategy) (h : IsTransparent directory storage)
    (line : String) :
    ∃ after, (CsvQuery.answer source strategy line).outcome storage
        = (.ok (directory.reply strategy line), after) ∧
      IsTransparent directory after := by
  obtain ⟨after, hrun, hafter⟩ :=
    outcome_runFrom_of_transparent strategy .empty (parse line) h
  refine ⟨after, ?_, hafter⟩
  show (runFrom source strategy .empty (parse line) >>= fun table =>
    pure table.toCsv).outcome storage = _
  rw [Work.outcome_bind, hrun]
  rfl

end Storage

/-! ## §2. Handlers that always answer in the same way -/

variable {σ : Type}

/-- On the states that are kept, the handler gives each request its own reply. -/
def Handler.IsSteady (handler : Handler σ) (kept : σ → Prop) (reply : String → String) : Prop :=
  ∀ state, kept state → ∀ request,
    ∃ after, (handler request).outcome state = (.ok (reply request), after) ∧ kept after

/-- A steady handler answers each request by itself, whatever it was asked before. -/
theorem Handler.IsSteady.replay {handler : Handler σ} {kept : σ → Prop} {reply : String → String}
    (h : handler.IsSteady kept reply) {state : σ} (hstate : kept state) (requests : List String) :
    ∃ after, Handler.replay handler state requests
      = (requests.map fun request => .ok (reply request), after) ∧ kept after := by
  induction requests generalizing state with
  | nil => exact ⟨state, rfl, hstate⟩
  | cons request requests ih =>
    obtain ⟨next, houtcome, hnext⟩ := h state hstate request
    obtain ⟨after, hreplay, hafter⟩ := ih hnext
    refine ⟨after, ?_, hafter⟩
    show (((handler request).outcome state).1 ::
        (Handler.replay handler ((handler request).outcome state).2 requests).1,
      (Handler.replay handler ((handler request).outcome state).2 requests).2) = _
    rw [houtcome, hreplay]
    rfl

namespace Server

variable {handler : Handler σ} {initial : σ} {past : List ServerEvent} {server : Server σ}

/-- A server whose handler always answers in the same way has answered every request with its own reply. -/
theorem IsOrderly.of_steady (h : IsOrderly handler initial past server) {kept : σ → Prop}
    {reply : String → String} (hsteady : handler.IsSteady kept reply) (hinitial : kept initial) :
    server.failure = none ∧
      ∀ k, (server.dialogue k).outcomes
        = (server.dialogue k).requests.map fun request => .ok (reply request) := by
  obtain ⟨after, hreplay, -⟩ := hsteady.replay hinitial (server.journal.map Handled.request)
  rw [h.replay_eq, List.map_map] at hreplay
  have hentries : ∀ entry ∈ server.journal, entry.outcome = .ok (reply entry.request) :=
    List.map_inj_left.mp (Prod.mk.inj hreplay).1
  constructor
  · cases hfailure : server.failure with
    | none => rfl
    | some cause =>
      obtain ⟨-, earlier, entry, hjournal, herror, -⟩ := h.stopped cause hfailure
      have hentry : entry ∈ server.journal := by
        rw [hjournal]
        exact List.mem_append_right _ List.mem_cons_self
      cases herror.symm.trans (hentries entry hentry)
  · intro k
    unfold Dialogue.outcomes Dialogue.requests
    rw [List.map_map]
    exact List.map_inj_left.mpr fun entry hentry => hentries entry (List.mem_filter.mp hentry).1

/-- What was written to a connection are the replies to the first frames of its stream. -/
theorem IsOrderly.isPrefix_written (h : IsOrderly handler initial past server) {kept : σ → Prop}
    {reply : String → String} (hsteady : handler.IsSteady kept reply) (hinitial : kept initial)
    (k : Nat) :
    (server.dialogue k).channel.written <+: (Frame.payloads (streamOf k past)).map reply := by
  obtain ⟨last, houtcomes, -, -⟩ := (h.conforms k).outcomes_eq
  rw [(h.of_steady hsteady hinitial).2 k] at houtcomes
  have hinjective : Function.Injective (Except.ok : String → Except Error String) :=
    fun _ _ => Except.ok.inj
  have hanswered : (server.dialogue k).channel.written
      <+: (server.dialogue k).requests.map reply := by
    rw [← List.prefix_map_iff_of_injective hinjective, List.map_map]
    exact ⟨last, houtcomes.symm⟩
  exact hanswered.trans ((h.conforms k).isPrefix_requests.map reply)

/-! ## §3. Query servers -/

/-- A server that runs has a step to take for the oldest request in its queue. -/
theorem exists_handle (hrunning : server.failure = none) (hqueue : server.queue ≠ []) :
    ∃ next, server.step handler .handle = some next := by
  obtain ⟨⟨k, request⟩, queue, hcons⟩ := List.exists_cons_of_ne_nil hqueue
  show ∃ next, server.handleNext handler = some next
  unfold handleNext
  rw [hrunning, hcons]
  simp only
  cases (handler request).outcome server.state with
  | mk outcome state =>
    cases outcome with
    | ok reply => exact ⟨_, rfl⟩
    | error cause => exact ⟨_, rfl⟩

/-- After any run of a query server over an embedded storage, whatever its cache has room for and whatever
the clients send, the server has not failed and can go on with its queue.  What was written to a client, and
what it can read, are the replies of new servers over the same directory to the first well-formed frames of
its own stream, in order.  A reply over the limit ends its own connection and leaves all else as it is.  So
in two runs in which a client sends the same bytes it is sent the same replies, as far as they go, whatever
the other clients do. -/
theorem replies_of_fresh_server (strategy : JoinStrategy) (directory : Directory) (capacity : Nat)
    (events : List ServerEvent) (server : Server Storage)
    (hrun : (start (Storage.start directory capacity)).run (answer Storage.source strategy) events
      = some server) :
    server.failure = none ∧
    (server.queue ≠ [] →
      ∃ next, server.step (answer Storage.source strategy) .handle = some next) ∧
    (∀ k fresh,
      (server.dialogue k).channel.written.map .ok
        <+: (Frame.payloads (streamOf k events)).map fun request =>
          ((answer Storage.source strategy request).outcome (Storage.start directory fresh)).1) ∧
    (∀ k, Frame.payloads (Responder.framesOf (server.dialogue k).channel.written)
      = (server.dialogue k).channel.written) ∧
    (∀ k reply, (server.dialogue k).channel.phase = .replying reply → ¬ Frame.Fits reply →
      ∃ next, server.step (answer Storage.source strategy) (.write k) = some next ∧
        (next.dialogue k).channel = (server.dialogue k).channel.become .closed ∧
        ChangesOnly k server next) ∧
    ∀ k capacity' events' server',
      (start (Storage.start directory capacity')).run (answer Storage.source strategy) events'
        = some server' →
      streamOf k events' = streamOf k events →
      (server.dialogue k).channel.written <+: (server'.dialogue k).channel.written ∨
        (server'.dialogue k).channel.written <+: (server.dialogue k).channel.written := by
  have hsteady : Handler.IsSteady (answer Storage.source strategy)
      (Storage.IsTransparent directory) (directory.reply strategy) :=
    fun _ hstate request => Storage.answer_of_transparent strategy hstate request
  have hwritten : ∀ {capacity events server},
      (start (Storage.start directory capacity)).run (answer Storage.source strategy) events
        = some server → ∀ k,
      (server.dialogue k).channel.written
        <+: (Frame.payloads (streamOf k events)).map (directory.reply strategy) :=
    fun hrun => (IsOrderly.run hrun).isPrefix_written hsteady (Storage.IsTransparent.start directory _)
  have hfailure : server.failure = none :=
    ((IsOrderly.run hrun).of_steady hsteady (Storage.IsTransparent.start directory capacity)).1
  refine ⟨hfailure, exists_handle hfailure, fun k fresh => ?_,
    fun k => Frame.payloads_framesOf ((IsOrderly.run hrun).conforms k).written_fits,
    fun _ _ => closed_of_write, ?_⟩
  · have hfresh : (fun request =>
        ((answer Storage.source strategy request).outcome (Storage.start directory fresh)).1)
        = Except.ok ∘ directory.reply strategy := by
      funext request
      obtain ⟨after, houtcome, -⟩ := hsteady _ (Storage.IsTransparent.start directory fresh) request
      rw [houtcome]
      rfl
    rw [hfresh, ← List.map_map]
    exact (hwritten hrun k).map Except.ok
  · intro k capacity' events' server' hrun' hstream
    refine List.prefix_or_prefix_of_prefix (hwritten hrun k) ?_
    rw [← hstream]
    exact hwritten hrun' k

/-- One client asks for a file, the other sends a frame that is cut and goes. -/
def crossing : List ServerEvent :=
  [.accept, .arrive 0 (Frame.frame "from f"), .accept, .arrive 1 [0, 0, 0, 9, 76], .finish 1, .read 0,
    .read 1, .enqueue 0, .handle, .write 0]

/-- Two clients whose traffic crosses, one of whom sends a bad frame, and a cache of other size. -/
theorem replies_of_fresh_server_crossing :
    ∃ server : Server Storage,
      (start (Storage.start (Directory.empty.write "f" [97, 10, 49, 10]) 1)).run
        (answer Storage.source .sortMerge) crossing = some server ∧
      (server.dialogue 0).channel.written = ["a\n1\n"] ∧ server.failure = none ∧
      ["a\n1\n"].map .ok <+: (Frame.payloads (streamOf 0 crossing)).map fun request =>
        ((answer Storage.source .sortMerge request).outcome
          (Storage.start (Directory.empty.write "f" [97, 10, 49, 10]) 7)).1 := by
  have hresult : ((start (Storage.start (Directory.empty.write "f" [97, 10, 49, 10]) 1)).run
      (answer Storage.source .sortMerge) crossing).map
        (fun server => (server.dialogue 0).channel.written) = some ["a\n1\n"] := by
    decide +kernel
  obtain ⟨server, hrun, hwritten⟩ := Option.map_eq_some_iff.mp hresult
  obtain ⟨hfailure, -, hreplies, -⟩ := replies_of_fresh_server _ _ _ _ server hrun
  have hreply := hreplies 0 7
  rw [hwritten] at hreply
  exact ⟨server, hrun, hwritten, hfailure, hreply⟩

end Server

end CsvQuery

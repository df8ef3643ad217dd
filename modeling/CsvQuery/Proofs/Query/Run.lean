/-
  CsvQuery.Proofs.Query.Run — one command, and all runs of commands.

  A command asks the source for at most one text and then makes its table out of the table before and
  that text, without any further use of the source.  So what is to be shown of all runs is shown of
  these two parts: what every command keeps, every run keeps, and runs of the same commands that keep
  their tables related ask for the same texts and end alike.

  Main results:
    • `outcome_apply` — a command in its two parts
    • `invariant_of_run` — what every command keeps holds of the table of every run
    • `related_of_runs` — related tables stay related, and the source cannot tell the runs apart
-/
import CsvQuery.Query.Run

namespace CsvQuery

variable {σ α β : Type}

/-! ## §1. Work -/

namespace Work

/-- Work goes on from the state that the work before it has left, unless that fails. -/
theorem outcome_bind (work : Work σ α) (next : α → Work σ β) (state : σ) :
    (work >>= next).outcome state
      = match work.outcome state with
        | (.ok a, after) => (next a).outcome after
        | (.error e, after) => (.error e, after) := by
  show (match work.outcome state with
    | (result, after) => (ExceptT.bindCont next result).run after) = _
  cases work.outcome state with
  | mk result after => cases result <;> rfl

/-- Two outcomes fail alike, or succeed with related values. -/
inductive Agree (related : α → β → Prop) : Except Error α → Except Error β → Prop where
  | ok {a : α} {b : β} (h : related a b) : Agree related (.ok a) (.ok b)
  | error (e : Error) : Agree related (.error e) (.error e)

theorem Agree.mono {related related' : α → β → Prop} (h : ∀ a b, related a b → related' a b)
    {result : Except Error α} {result' : Except Error β} (hagree : Agree related result result') :
    Agree related' result result' := by
  cases hagree with
  | ok hab => exact .ok (h _ _ hab)
  | error e => exact .error e

end Work

/-! ## §2. One command -/

namespace Command

/-- The reply to what a command fetches, and the source after it; what fetches nothing is taken to get
an empty reply. -/
def reply (source : Source σ) (command : Command) (state : σ) : Except Error String × σ :=
  match command.path? with
  | some path => (source.fetch path).outcome state
  | none => (.ok "", state)

/-- The table that a command makes of a table and the reply to what it fetches. -/
def effect (strategy : JoinStrategy) (table : Table) (reply : String) : Command → Table
  | load _ => table.load reply
  | select columns => table.select columns
  | take limit => table.take limit
  | orderBy column => table.orderBy column
  | join _ column => table.join strategy (Table.empty.load reply) column
  | countBy column => table.countBy column

/-- A command fetches first, and with the reply its effect is settled. -/
theorem outcome_apply (source : Source σ) (strategy : JoinStrategy) (table : Table)
    (command : Command) (state : σ) :
    (command.apply source strategy table).outcome state
      = match command.reply source state with
        | (.ok reply, after) => (.ok (command.effect strategy table reply), after)
        | (.error e, after) => (.error e, after) := by
  cases command with
  | load path =>
    show (source.fetch path >>= fun reply => pure (table.load reply)).outcome state = _
    have hreply : (load path).reply source state = (source.fetch path).outcome state := rfl
    rw [Work.outcome_bind, hreply]
    cases (source.fetch path).outcome state with
    | mk result after => cases result <;> rfl
  | join path column =>
    show (source.fetch path >>= fun reply =>
      pure (table.join strategy (Table.empty.load reply) column)).outcome state = _
    have hreply : (join path column).reply source state = (source.fetch path).outcome state := rfl
    rw [Work.outcome_bind, hreply]
    cases (source.fetch path).outcome state with
    | mk result after => cases result <;> rfl
  | select columns => rfl
  | take limit => rfl
  | orderBy column => rfl
  | countBy column => rfl

/-- Only joins depend on the strategy. -/
theorem effect_eq_of_not_join {command : Command} (h : command.keyword ≠ .join)
    (strategy strategy' : JoinStrategy) (table : Table) (reply : String) :
    command.effect strategy table reply = command.effect strategy' table reply := by
  cases command with
  | join path column => exact absurd rfl h
  | _ => rfl

end Command

/-! ## §3. Runs -/

/-- The table that a list of commands makes of a table. -/
def runFrom (source : Source σ) (strategy : JoinStrategy) (table : Table)
    (commands : List Command) : Work σ Table :=
  commands.foldlM (Command.apply source strategy) table

theorem runCommands_eq (source : Source σ) (strategy : JoinStrategy) (commands : List Command) :
    runCommands source strategy commands = runFrom source strategy Table.empty commands := rfl

/-- A run asks for what its first command needs and goes on with the table that the command makes. -/
theorem outcome_runFrom_cons (source : Source σ) (strategy : JoinStrategy) (table : Table)
    (command : Command) (commands : List Command) (state : σ) :
    (runFrom source strategy table (command :: commands)).outcome state
      = match command.reply source state with
        | (.ok reply, after) =>
          (runFrom source strategy (command.effect strategy table reply) commands).outcome after
        | (.error e, after) => (.error e, after) := by
  show (command.apply source strategy table >>= fun next =>
    runFrom source strategy next commands).outcome state = _
  rw [Work.outcome_bind, Command.outcome_apply]
  cases command.reply source state with
  | mk result after => cases result <;> rfl

/-- What every command keeps, every run keeps. -/
theorem invariant_of_run {source : Source σ} {strategy : JoinStrategy} {invariant : Table → Prop}
    (hstep : ∀ (command : Command) (table : Table) (reply : String),
      invariant table → invariant (command.effect strategy table reply))
    {commands : List Command} {table result : Table} {state after : σ} (htable : invariant table)
    (hrun : (runFrom source strategy table commands).outcome state = (.ok result, after)) :
    invariant result := by
  -- the invariant goes with the table, from one command to the next
  induction commands generalizing table state with
  | nil =>
    have heq : (Except.ok table, state) = (Except.ok result, after) := hrun
    injection heq with hresult
    injection hresult with hresult
    rw [← hresult]
    exact htable
  | cons command commands ih =>
    rw [outcome_runFrom_cons] at hrun
    cases hreply : command.reply source state with
    | mk fetched next =>
      rw [hreply] at hrun
      cases fetched with
      | ok reply => exact ih (hstep command table reply htable) hrun
      | error e => cases hrun

/-- Runs of the same commands whose steps keep their tables related go alike: the source ends in the
same state, and both fail with one error or succeed with related tables. -/
theorem related_of_runs (source : Source σ) {strategy strategy' : JoinStrategy}
    {related : Table → Table → Prop} {commands : List Command}
    (hstep : ∀ command ∈ commands, ∀ (table table' : Table) (reply : String),
      related table table' →
        related (command.effect strategy table reply) (command.effect strategy' table' reply))
    {table table' : Table} (htable : related table table') (state : σ) :
    ((runFrom source strategy table commands).outcome state).2
        = ((runFrom source strategy' table' commands).outcome state).2 ∧
      Work.Agree related ((runFrom source strategy table commands).outcome state).1
        ((runFrom source strategy' table' commands).outcome state).1 := by
  induction commands generalizing table table' state with
  | nil => exact ⟨rfl, .ok htable⟩
  | cons command commands ih =>
    rw [outcome_runFrom_cons, outcome_runFrom_cons]
    -- both runs get the same reply, as they have asked for the same texts so far
    cases command.reply source state with
    | mk fetched after =>
      cases fetched with
      | error e => exact ⟨rfl, .error e⟩
      | ok reply =>
        exact ih (fun later hlater => hstep later (List.mem_cons_of_mem _ hlater))
          (hstep command List.mem_cons_self table table' reply htable) after

/-! ## §4. Answers -/

/-- An answer is the text of the table that the commands leave. -/
theorem outcome_answer (source : Source σ) (strategy : JoinStrategy) (line : String) (state : σ) :
    (answer source strategy line).outcome state
      = (((runCommands source strategy (parse line)).outcome state).1.map Table.toCsv,
        ((runCommands source strategy (parse line)).outcome state).2) := by
  show (runCommands source strategy (parse line) >>= fun table => pure table.toCsv).outcome state = _
  rw [Work.outcome_bind]
  cases (runCommands source strategy (parse line)).outcome state with
  | mk result after => cases result <;> rfl

/-! ## §5. Sources that answer alike -/

namespace Source

variable {τ : Type}

/-- The names that are asked for are answered alike, from states that are related and stay so. -/
def AnswersLike (source : Source σ) (other : Source τ) (asked : String → Prop)
    (related : σ → τ → Prop) : Prop :=
  ∀ state state', related state state' → ∀ name, asked name →
    ((source.fetch name).outcome state).1 = ((other.fetch name).outcome state').1 ∧
      related ((source.fetch name).outcome state).2 ((other.fetch name).outcome state').2

namespace AnswersLike

variable {source : Source σ} {other : Source τ} {asked : String → Prop} {related : σ → τ → Prop}
  {state : σ} {state' : τ}

/-- Sources that answer alike give a command the same reply. -/
theorem reply (h : source.AnswersLike other asked related) (hstate : related state state')
    {command : Command} (hasked : ∀ path, command.path? = some path → asked path) :
    (command.reply source state).1 = (command.reply other state').1 ∧
      related (command.reply source state).2 (command.reply other state').2 := by
  unfold Command.reply
  cases hpath : command.path? with
  | none => exact ⟨rfl, hstate⟩
  | some path => exact h state state' hstate path (hasked path hpath)

/-- Runs from sources that answer alike have the same result. -/
theorem runFrom (h : source.AnswersLike other asked related) (hstate : related state state')
    {commands : List Command}
    (hasked : ∀ command ∈ commands, ∀ path, command.path? = some path → asked path)
    (strategy : JoinStrategy) (table : Table) :
    ((CsvQuery.runFrom source strategy table commands).outcome state).1
        = ((CsvQuery.runFrom other strategy table commands).outcome state').1 ∧
      related ((CsvQuery.runFrom source strategy table commands).outcome state).2
        ((CsvQuery.runFrom other strategy table commands).outcome state').2 := by
  induction commands generalizing table state state' with
  | nil => exact ⟨rfl, hstate⟩
  | cons command commands ih =>
    obtain ⟨hsame, hnext⟩ := h.reply hstate (hasked command List.mem_cons_self)
    rw [outcome_runFrom_cons, outcome_runFrom_cons]
    cases hleft : command.reply source state with
    | mk fetched after =>
      cases hright : command.reply other state' with
      | mk fetched' after' =>
        rw [hleft, hright] at hsame hnext
        change fetched = fetched' at hsame
        subst hsame
        cases fetched with
        | error e => exact ⟨rfl, hnext⟩
        | ok reply =>
          exact ih hnext (fun later hlater => hasked later (List.mem_cons_of_mem _ hlater)) _

/-- Queries over sources that answer alike are answered alike. -/
theorem answer (h : source.AnswersLike other asked related) (hstate : related state state')
    {line : String}
    (hasked : ∀ command ∈ parse line, ∀ path, command.path? = some path → asked path)
    (strategy : JoinStrategy) :
    ((CsvQuery.answer source strategy line).outcome state).1
        = ((CsvQuery.answer other strategy line).outcome state').1 ∧
      related ((CsvQuery.answer source strategy line).outcome state).2
        ((CsvQuery.answer other strategy line).outcome state').2 := by
  obtain ⟨hsame, hnext⟩ := h.runFrom hstate hasked strategy Table.empty
  rw [outcome_answer, outcome_answer, runCommands_eq, runCommands_eq, hsame]
  exact ⟨rfl, hnext⟩

end AnswersLike

end Source

end CsvQuery

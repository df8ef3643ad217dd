/-
  CsvQuery.Proofs.Query.Failure — a query fails only where its source does.

  The names that a line asks for are settled by its commands, before anything is fetched.  They are fetched
  one after another up to the first one that the source refuses, and that refusal is the only failure that
  the line can end in: no command and no writing of a table adds another.

  Main results:
    • `Command.error_of_execute` — what a failed command has done
    • `exists_fetches_of_run` — what the source is asked in a run, and how it ends
    • `failure_only_from_source` — lines, commands and writing: where a failure comes from
-/
import CsvQuery.Proofs.Query.Execute
import CsvQuery.Proofs.Query.Grammar

namespace CsvQuery

variable {σ α : Type}

/-! ## §1. Fetching name after name -/

/-- The failure of an outcome, if it is one. -/
def failure? : Except Error α → Option Error
  | .ok _ => none
  | .error e => some e

theorem failure?_map {β : Type} (f : α → β) (result : Except Error α) :
    failure? (result.map f) = failure? result := by
  cases result <;> rfl

namespace Source

/-- Names are fetched one after another from a state of the source: which of them are asked for, with what
failure that ends and in which state. -/
inductive Fetches (source : Source σ) : List String → σ → List String → Option Error → σ → Prop where
  /-- No name is left. -/
  | done (state : σ) : Fetches source [] state [] none state
  /-- A name is refused, and those behind it are not asked for. -/
  | refused {name : String} {names : List String} {state after : σ} {e : Error}
      (hfetch : (source.fetch name).outcome state = (.error e, after)) :
      Fetches source (name :: names) state [name] (some e) after
  /-- A name is answered, and fetching goes on with those behind it. -/
  | answered {name reply : String} {names asked : List String} {state next after : σ}
      {failure : Option Error} (hfetch : (source.fetch name).outcome state = (.ok reply, next))
      (hrest : Fetches source names next asked failure after) :
      Fetches source (name :: names) state (name :: asked) failure after

end Source

/-! ## §2. Commands and runs -/

/-- A command that fails has failed to fetch, before it changed the table. -/
theorem Command.error_of_execute {source : Source σ} {strategy : JoinStrategy} (command : Command)
    {table changed : IndexedTable} {state after : σ} {e : Error}
    (h : (command.execute source strategy).outcome (table, state) = (.error e, (changed, after))) :
    changed = table ∧
      ∃ path, command.path? = some path ∧ (source.fetch path).outcome state = (.error e, after) := by
  rw [Command.outcome_execute] at h
  cases hreply : command.reply source state with
  | mk fetched next =>
    rw [hreply] at h
    cases fetched with
    | ok reply => cases h
    | error cause =>
      -- only a fetch has a reply that is a failure
      cases h
      unfold Command.reply at hreply
      cases hpath : command.path? with
      | none =>
        rw [hpath] at hreply
        cases hreply
      | some path =>
        rw [hpath] at hreply
        exact ⟨rfl, path, rfl, hreply⟩

/-- Keeping the names changes no reply. -/
theorem Command.reply_recorded (source : Source σ) (command : Command) (log : List String) (state : σ) :
    command.reply source.recorded (log, state)
      = ((command.reply source state).1, (command.path?.toList ++ log, (command.reply source state).2)) := by
  unfold Command.reply
  cases command.path? <;> rfl

/-- In a run the names of its commands are fetched one after another, and the run fails as that does. -/
theorem exists_fetches_of_run (source : Source σ) (strategy : JoinStrategy) (commands : List Command)
    (table : Table) (log : List String) (state : σ) :
    ∃ result asked after,
      (runFrom source strategy table commands).outcome state = (result, after) ∧
      (runFrom source.recorded strategy table commands).outcome (log, state)
        = (result, (asked.reverse ++ log, after)) ∧
      source.Fetches (commands.filterMap Command.path?) state asked (failure? result) after := by
  induction commands generalizing table log state with
  | nil => exact ⟨.ok table, [], state, rfl, rfl, .done state⟩
  | cons command commands ih =>
    rw [outcome_runFrom_cons, outcome_runFrom_cons, Command.reply_recorded]
    unfold Command.reply
    cases hpath : command.path? with
    | none =>
      -- the command asks for nothing, and the run goes on behind it
      rw [List.filterMap_cons_none hpath]
      exact ih (command.effect strategy table "") log state
    | some path =>
      rw [List.filterMap_cons_some hpath]
      dsimp only
      cases hfetch : (source.fetch path).outcome state with
      | mk fetched next =>
        cases fetched with
        | error e =>
          -- the run ends here, with all names behind this one not asked for
          exact ⟨.error e, [path], next, rfl, rfl, .refused hfetch⟩
        | ok reply =>
          obtain ⟨result, asked, after, hrun, hrecorded, hrest⟩ :=
            ih (command.effect strategy table reply) (path :: log) next
          refine ⟨result, path :: asked, after, hrun, ?_, .answered hfetch hrest⟩
          rw [List.reverse_cons, List.append_assoc]
          exact hrecorded

/-! ## §3. Lines -/

/-- A line of blanks only has no commands. -/
theorem parse_of_blank {line : String} (h : ∀ c ∈ line.toList, isBlank c = true) : parse line = [] := by
  have htokens : tokens line = [] := by
    rw [tokens_eq_iff]
    exact .none h
  refine parse_of_isQuery ?_
  rw [htokens]
  exact .nil

/-- A line without commands is answered with the empty text, and nothing is fetched. -/
theorem outcome_answer_of_parse_eq_nil (source : Source σ) (strategy : JoinStrategy) {line : String}
    (h : parse line = []) (state : σ) :
    (answer source strategy line).outcome state = (.ok "", state) := by
  rw [outcome_answer, h]
  rfl

/-- A line fetches the names of its commands one after another and fails just as that does; a blank or an
ill-formed line fetches nothing and gets an empty answer.  A command fails only as its fetch did, and the
table is then as it was; and every table can be written. -/
theorem failure_only_from_source (source : Source σ) (strategy : JoinStrategy) (line : String)
    (state : σ) :
    (∃ result asked after,
      (answer source strategy line).outcome state = (result, after) ∧
      executeLine source.recorded strategy line ([], state)
        = (result.mapError .command, (asked.reverse, after)) ∧
      source.Fetches ((parse line).filterMap Command.path?) state asked (failure? result) after) ∧
    (((∀ c ∈ line.toList, isBlank c = true) ∨ ∀ commands, ¬IsQuery (tokens line) commands) →
      executeLine source.recorded strategy line ([], state) = (.ok "", ([], state))) ∧
    (∀ (command : Command) (table changed : IndexedTable) (e : Error) (after : σ),
      (command.execute source strategy).outcome (table, state) = (.error e, (changed, after)) →
        changed = table ∧
        ∃ path, command.path? = some path ∧ (source.fetch path).outcome state = (.error e, after)) ∧
    ∀ (columns : List String) (rows : List Row),
      Csv.write columns rows = .ok (Csv.encode columns rows) := by
  refine ⟨?_, ?_, ?_, ?_⟩
  · obtain ⟨result, asked, after, hrun, hrecorded, hfetches⟩ :=
      exists_fetches_of_run source strategy (parse line) Table.empty [] state
    refine ⟨result.map Table.toCsv, asked, after, ?_, ?_, ?_⟩
    · rw [outcome_answer, runCommands_eq, hrun]
    · rw [List.append_nil] at hrecorded
      rw [executeLine_eq, outcome_answer, runCommands_eq, hrecorded]
    · rw [failure?_map]
      exact hfetches
  · intro h
    have hparse : parse line = [] := h.elim parse_of_blank parse_of_not_isQuery
    rw [executeLine_eq, outcome_answer_of_parse_eq_nil source.recorded strategy hparse]
    rfl
  · exact fun command table changed e after hexecute => command.error_of_execute hexecute
  · exact Csv.write_eq

end CsvQuery

/-
  CsvQuery.Proofs.Query.Execute — a query on one table is the query on tables.

  A command changes the table only after it has fetched what it needs, and never fails by itself.  So a
  failure finds the table as it was, and as long as there is none the table is the one that the same
  commands make as a function of tables, with the index of its columns.

  Main results:
    • `Command.outcome_execute` — the step: what a command does to the table and the source
    • `outcome_executeAll_indexed` — the run: the commands of a query, on one table and on tables
    • `executeLine_eq` — the answer to a line, on one table and on tables
    • `tables_reached_sound` — what holds of every table on the way
-/
import CsvQuery.Proofs.Csv.Write
import CsvQuery.Proofs.Query.Reply
import CsvQuery.Proofs.Table.Indexed
import CsvQuery.Query.Execute

namespace CsvQuery

variable {σ : Type}

/-! ## §1. One command -/

namespace Command

/-- What a command makes of the table, given the reply to what it fetches. -/
def change (strategy : JoinStrategy) (table : IndexedTable) (reply : String) : Command → IndexedTable
  | load _ => table.load reply
  | select columns => table.select columns
  | take limit => table.take limit
  | orderBy column => table.orderBy column
  | join _ column => table.join strategy (IndexedTable.empty.load reply) column
  | countBy column => table.countBy column

/-- A command that fetches changes the table with the reply, and leaves it alone if there is none. -/
theorem outcome_fetch_change (source : Source σ) (path : String)
    (change : IndexedTable → String → IndexedTable) (table : IndexedTable) (state : σ) :
    Work.outcome (do
        let reply ← (source.fetch path).beside
        changeTable fun table => change table reply) (table, state)
      = match (source.fetch path).outcome state with
        | (.ok reply, after) => (.ok (), (change table reply, after))
        | (.error e, after) => (.error e, (table, after)) := by
  have hbeside : (source.fetch path).beside.outcome (table, state)
      = (((source.fetch path).outcome state).1, (table, ((source.fetch path).outcome state).2)) := rfl
  rw [Work.outcome_bind, hbeside]
  cases (source.fetch path).outcome state with
  | mk result after => cases result <;> rfl

/-- A command fetches first, and only a reply lets it change the table. -/
theorem outcome_execute (source : Source σ) (strategy : JoinStrategy) (command : Command)
    (table : IndexedTable) (state : σ) :
    (command.execute source strategy).outcome (table, state)
      = match command.reply source state with
        | (.ok reply, after) => (.ok (), (command.change strategy table reply, after))
        | (.error e, after) => (.error e, (table, after)) := by
  cases command with
  | load path => exact outcome_fetch_change source path IndexedTable.load table state
  | join path column =>
    exact outcome_fetch_change source path
      (fun table reply => table.join strategy (IndexedTable.empty.load reply) column) table state
  | select columns => rfl
  | take limit => rfl
  | orderBy column => rfl
  | countBy column => rfl

/-- A command changes the table with its index as it changes the table. -/
theorem change_indexed (strategy : JoinStrategy) (table : Table) (reply : String) (command : Command) :
    command.change strategy table.indexed reply = (command.effect strategy table reply).indexed := by
  cases command with
  | load path => exact (table.indexed_load reply).symm
  | select columns => exact (table.indexed_select columns).symm
  | take limit => exact (table.indexed_take limit).symm
  | orderBy column => exact (table.indexed_orderBy column).symm
  | join path column =>
    show table.indexed.join strategy (Table.empty.indexed.load reply) column = _
    rw [← Table.indexed_load, ← Table.indexed_join]
    rfl
  | countBy column => exact (table.indexed_countBy column).symm

end Command

/-! ## §2. Runs -/

/-- Executing goes from command to command, each on the table with its index that the last one has left. -/
theorem outcome_executeAll_cons (source : Source σ) (strategy : JoinStrategy) (command : Command)
    (commands : List Command) (table : IndexedTable) (state : σ) :
    (executeAll source strategy (command :: commands)).outcome (table, state)
      = match command.reply source state with
        | (.ok reply, after) =>
          (executeAll source strategy commands).outcome (command.change strategy table reply, after)
        | (.error e, after) => (.error e, (table, after)) := by
  show (command.execute source strategy >>= fun _ =>
    executeAll source strategy commands).outcome (table, state) = _
  rw [Work.outcome_bind, Command.outcome_execute]
  cases command.reply source state with
  | mk result after => cases result <;> rfl

/-- The commands of a query go on one table as they go on tables: the source ends in the same state, both
fail with one error or not at all, and without a failure the table is the one that the commands make. -/
theorem outcome_executeAll_indexed (source : Source σ) (strategy : JoinStrategy)
    (commands : List Command) (table : Table) (state : σ) :
    ∃ last : Table, (executeAll source strategy commands).outcome (table.indexed, state)
        = (((runFrom source strategy table commands).outcome state).1.map fun _ => (),
          (last.indexed, ((runFrom source strategy table commands).outcome state).2)) ∧
      ∀ result, ((runFrom source strategy table commands).outcome state).1 = .ok result →
        last = result := by
  induction commands generalizing table state with
  | nil => exact ⟨table, rfl, fun result hresult => Except.ok.inj hresult⟩
  | cons command commands ih =>
    rw [outcome_executeAll_cons, outcome_runFrom_cons]
    cases command.reply source state with
    | mk fetched after =>
      cases fetched with
      | error e => exact ⟨table, rfl, nofun⟩
      | ok reply =>
        dsimp only
        rw [Command.change_indexed]
        exact ih (command.effect strategy table reply) after

/-- Executing from the empty table ends as the run does, with the index of the table. -/
theorem outcome_executeAll_empty (source : Source σ) (strategy : JoinStrategy)
    (commands : List Command) (state : σ) :
    ∃ last : Table, (executeAll source strategy commands).outcome (.empty, state)
        = (((runCommands source strategy commands).outcome state).1.map fun _ => (),
          (last.indexed, ((runCommands source strategy commands).outcome state).2)) ∧
      ∀ result, ((runCommands source strategy commands).outcome state).1 = .ok result →
        last = result :=
  outcome_executeAll_indexed source strategy commands Table.empty state

/-- The answer that is worked out on one table is the answer. -/
theorem executeLine_eq (source : Source σ) (strategy : JoinStrategy) (line : String) (state : σ) :
    executeLine source strategy line state
      = (((answer source strategy line).outcome state).1.mapError .command,
        ((answer source strategy line).outcome state).2) := by
  obtain ⟨last, hexecute, hlast⟩ := outcome_executeAll_empty source strategy (parse line) state
  unfold executeLine
  rw [hexecute, outcome_answer]
  cases hresult : ((runCommands source strategy (parse line)).outcome state).1 with
  | error e => rfl
  | ok result =>
    rw [hlast result hresult]
    show ((Csv.write result.columns result.rows).mapError QueryFault.writing, _) = _
    rw [Csv.write_eq]
    rfl

/-! ## §3. Tables on the way -/

theorem tablesReached_cons (source : Source σ) (strategy : JoinStrategy) (command : Command)
    (commands : List Command) (table : IndexedTable) (state : σ) :
    tablesReached source strategy (command :: commands) (table, state)
      = match command.reply source state with
        | (.ok reply, after) =>
          command.change strategy table reply ::
            tablesReached source strategy commands (command.change strategy table reply, after)
        | (.error _, _) => [table] := by
  rw [tablesReached, Command.outcome_execute]
  cases command.reply source state with
  | mk result after => cases result <;> rfl

namespace IndexedTable

/-- The index leads from each name to its last position and has no other entry; every cell is absent, an
integer, a finite number or a text that is read as itself; and under a header every row has a cell. -/
structure Sound (table : IndexedTable) : Prop where
  index : ∀ name position,
    table.index[name]? = some position ↔ IsLastPosition name table.columns position
  cells : ∀ row ∈ table.rows, ∀ cell ∈ row, cell.IsRead
  filled : table.columns ≠ [] → ∀ row ∈ table.rows, row ≠ []

end IndexedTable

theorem Table.IsRead.sound_indexed {table : Table} (h : table.IsRead) : table.indexed.Sound := by
  refine ⟨fun name position => ?_, h.cells, h.filled⟩
  rw [← lastPosition_eq_some_iff, ← ColumnIndex.getElem?_ofColumns]
  rfl

/-- From a table of cells that were read, only sound tables are reached. -/
theorem sound_of_mem_tablesReached (source : Source σ) (strategy : JoinStrategy)
    (commands : List Command) {table : Table} (htable : table.IsRead) (state : σ) :
    ∀ reached ∈ tablesReached source strategy commands (table.indexed, state), reached.Sound := by
  induction commands generalizing table state with
  | nil => nofun
  | cons command commands ih =>
    rw [tablesReached_cons]
    cases command.reply source state with
    | mk fetched after =>
      cases fetched with
      | error e =>
        -- the table is still the one before the command
        intro reached hreached
        rw [List.mem_singleton.mp hreached]
        exact htable.sound_indexed
      | ok reply =>
        dsimp only
        rw [Command.change_indexed]
        have hnext := htable.effect strategy reply command
        intro reached hreached
        rcases List.mem_cons.mp hreached with rfl | hlater
        · exact hnext.sound_indexed
        · exact ih hnext after reached hlater

/-- The last table that is reached is the one that the run leaves. -/
theorem getLast?_tablesReached (source : Source σ) (strategy : JoinStrategy) (commands : List Command)
    (table : IndexedTable) (state : σ) :
    (table :: tablesReached source strategy commands (table, state)).getLast?
      = some ((executeAll source strategy commands).outcome (table, state)).2.1 := by
  induction commands generalizing table state with
  | nil => rfl
  | cons command commands ih =>
    rw [tablesReached_cons, outcome_executeAll_cons]
    cases command.reply source state with
    | mk fetched after =>
      cases fetched with
      | error e => rfl
      | ok reply =>
        dsimp only
        rw [List.getLast?_cons_cons]
        exact ih _ after

/-- Every table that a query reaches on its way from the empty one is sound, and the last of them is the
table that its commands make. -/
theorem tables_reached_sound (source : Source σ) (strategy : JoinStrategy) (commands : List Command)
    (state : σ) :
    (∀ table ∈ tablesReached source strategy commands (.empty, state), table.Sound) ∧
    ∀ result after, (runCommands source strategy commands).outcome state = (.ok result, after) →
      (IndexedTable.empty :: tablesReached source strategy commands (.empty, state)).getLast?
        = some result.indexed := by
  refine ⟨sound_of_mem_tablesReached source strategy commands Table.isRead_empty state, ?_⟩
  intro result after hrun
  obtain ⟨last, hexecute, hlast⟩ := outcome_executeAll_empty source strategy commands state
  rw [hrun] at hexecute hlast
  rw [getLast?_tablesReached, hexecute, hlast result rfl]

end CsvQuery

/-
  CsvQuery.Proofs.Query.Reply — the answer to a line is a canonical text.

  Whatever the source replies, the table that a query leaves holds only cells that were read or counted,
  since every command keeps it so.  Its text is therefore the one text of the table that is read from
  it, and no column, row or cell of the table is lost on the way.

  Main results:
    • `IsRead.effect` — the step: every command makes cells that were read out of such cells
    • `isRead_of_run` — the run
    • `answer_canonical` — the answer, written again after it is read
-/
import CsvQuery.Proofs.Query.Run
import CsvQuery.Proofs.Table.Reading

namespace CsvQuery

variable {σ : Type}

/-! ## §1. The table of a query -/

/-- Every command makes a table of cells that were read out of one. -/
theorem Table.IsRead.effect {table : Table} (h : table.IsRead) (strategy : JoinStrategy)
    (reply : String) (command : Command) : (command.effect strategy table reply).IsRead := by
  cases command with
  | load path => exact h.load reply
  | select columns => exact h.select columns
  | take limit => exact h.take limit
  | orderBy column => exact h.orderBy column
  | join path column => exact h.join (isRead_empty.load reply) strategy column
  | countBy column => exact h.countBy column

theorem isRead_of_run {source : Source σ} {strategy : JoinStrategy} {commands : List Command}
    {table : Table} {state after : σ}
    (hrun : (runCommands source strategy commands).outcome state = (.ok table, after)) :
    table.IsRead :=
  invariant_of_run (fun command _ reply h => h.effect strategy reply command) Table.isRead_empty hrun

/-! ## §2. The answer -/

/-- A reply is the text of the table that the run of the line ends with. -/
theorem exists_table_of_answer {source : Source σ} {strategy : JoinStrategy} {line reply : String}
    {state after : σ}
    (hreply : (answer source strategy line).outcome state = (.ok reply, after)) :
    ∃ table, (runCommands source strategy (parse line)).outcome state = (.ok table, after) ∧
      table.toCsv = reply := by
  rw [outcome_answer] at hreply
  cases hrun : (runCommands source strategy (parse line)).outcome state with
  | mk result next =>
    rw [hrun] at hreply
    cases result with
    | error e => cases hreply
    | ok table =>
      cases hreply
      exact ⟨table, rfl, rfl⟩

/-- An answer that does not begin with a byte order mark is written again as it is after it is read, and
what is read has the columns of the table that the commands leave and, if there are any, its rows with
their widths. -/
theorem answer_canonical (source : Source σ) (strategy : JoinStrategy) (line reply : String)
    (state after : σ) (hreply : (answer source strategy line).outcome state = (.ok reply, after))
    (hmark : reply.toList.head? ≠ some '\uFEFF') :
    Csv.encode (Csv.decode reply).1 (Csv.decode reply).2 = reply ∧
    ∃ table, (runCommands source strategy (parse line)).outcome state = (.ok table, after) ∧
      (Csv.decode reply).1 = table.columns ∧
      (table.columns ≠ [] →
        (Csv.decode reply).2.map List.length = table.rows.map List.length) := by
  -- all that is said of the answer is said of the table that the run leaves
  obtain ⟨table, hrun, htext⟩ := exists_table_of_answer hreply
  rw [← htext] at hmark ⊢
  have hread : table.IsRead := isRead_of_run hrun
  refine ⟨hread.toCsv_ofCsv_toCsv hmark, table, hrun, ?_, ?_⟩
  · show (Table.ofCsv table.toCsv).columns = table.columns
    by_cases hcolumns : table.columns = []
    · rw [Table.toCsv_of_columns_eq_nil hcolumns, hcolumns]
      rfl
    · rw [Table.ofCsv_toCsv hcolumns hmark]
  · intro hcolumns
    show (Table.ofCsv table.toCsv).rows.map List.length = _
    rw [Table.ofCsv_toCsv hcolumns hmark]
    exact hread.length_reread hcolumns

/-- A source of one table with a short row, a blank one and a whole number that is shown without a
point. -/
def oneTable : Source Unit := .fixed fun _ => .ok "k,v\n1e3\n\n\"a,b\",1e16\n"

/-- The answer about that table is written again as it is, though its last row is read with an integer
in the place of the other form. -/
theorem answer_canonical_short_rows :
    (answer oneTable .sortMerge "from t select v,k").outcome ()
      = (.ok "v,k\n,1000.0\n,\n10000000000000000,\"a,b\"\n", ()) ∧
    "v,k\n,1000.0\n,\n10000000000000000,\"a,b\"\n".toList.head? ≠ some '\uFEFF' ∧
    Csv.encode (Csv.decode "v,k\n,1000.0\n,\n10000000000000000,\"a,b\"\n").1
        (Csv.decode "v,k\n,1000.0\n,\n10000000000000000,\"a,b\"\n").2
      = "v,k\n,1000.0\n,\n10000000000000000,\"a,b\"\n" := by
  have hreply : (answer oneTable .sortMerge "from t select v,k").outcome ()
      = (.ok "v,k\n,1000.0\n,\n10000000000000000,\"a,b\"\n", ()) := by decide +kernel
  have hmark : "v,k\n,1000.0\n,\n10000000000000000,\"a,b\"\n".toList.head? ≠ some '\uFEFF' := by
    decide +kernel
  exact ⟨hreply, hmark, (answer_canonical _ _ _ _ _ _ hreply hmark).1⟩

end CsvQuery

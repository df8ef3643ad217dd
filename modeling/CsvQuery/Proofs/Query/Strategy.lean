/-
  CsvQuery.Proofs.Query.Strategy — the strategy of the joins is no part of the answer.

  Two runs of one query, each joining in its own way, ask for the same texts and keep their tables
  agreeing: up to the first join they are one run, and from there on every command but one keeps
  agreement.  The exception takes rows from the top, and which rows stand there is the strategy's choice.

  Main results:
    • `Agree.effect` — the step: what commands keep
    • `agree_of_runs` — the run, with any two strategies
    • `run_strategies_agree` — hashing and merging, with all that a source can see of them
-/
import CsvQuery.Proofs.Query.Run
import CsvQuery.Proofs.Table.Agreement

namespace CsvQuery

variable {σ : Type}

/-! ## §1. One command -/

/-- Every command that does not take rows from the top keeps agreement, with any two strategies. -/
theorem Table.Agree.effect {a b : Table} (h : a.Agree b) {command : Command}
    (hcommand : command.keyword ≠ .take) (strategy strategy' : JoinStrategy) (reply : String) :
    (command.effect strategy a reply).Agree (command.effect strategy' b reply) := by
  cases command with
  | load path => exact h.load reply
  | select columns => exact h.select columns
  | take limit => exact absurd rfl hcommand
  | orderBy column => exact h.orderBy column
  | join path column => exact h.join strategy strategy' (Table.empty.load reply) column
  | countBy column => exact h.countBy column

/-! ## §2. Runs -/

/-- No rows are taken from the top once a join has been made. -/
def NoTakeAfterJoin (commands : List Command) : Prop :=
  commands.Pairwise fun earlier later => earlier.keyword = .join → later.keyword ≠ .take

instance (commands : List Command) : Decidable (NoTakeAfterJoin commands) :=
  inferInstanceAs (Decidable (commands.Pairwise _))

/-- From one table, runs with any two strategies leave the source in one state and end alike, with
agreeing tables if with any. -/
theorem agree_of_runs (source : Source σ) (strategy strategy' : JoinStrategy)
    {commands : List Command} (h : NoTakeAfterJoin commands) (table : Table) (state : σ) :
    ((runFrom source strategy table commands).outcome state).2
        = ((runFrom source strategy' table commands).outcome state).2 ∧
      Work.Agree Table.Agree ((runFrom source strategy table commands).outcome state).1
        ((runFrom source strategy' table commands).outcome state).1 := by
  induction commands generalizing table state with
  | nil => exact ⟨rfl, .ok (.refl table)⟩
  | cons command commands ih =>
    have hcons := List.pairwise_cons.mp h
    -- the runs part at the first join, and until then they are one
    by_cases hjoin : command.keyword = .join
    · -- from here on the tables only agree, and no command looks at the top rows
      refine related_of_runs source ?_ (Table.Agree.refl table) state
      intro later hlater a b reply hab
      refine hab.effect ?_ strategy strategy' reply
      rcases List.mem_cons.mp hlater with hthis | hrest
      · rw [hthis, hjoin]
        decide
      · exact hcons.1 later hrest hjoin
    · -- before it the tables are the same
      rw [outcome_runFrom_cons, outcome_runFrom_cons]
      cases command.reply source state with
      | mk fetched after =>
        cases fetched with
        | error e => exact ⟨rfl, .error e⟩
        | ok reply =>
          dsimp only
          rw [Command.effect_eq_of_not_join hjoin strategy' strategy]
          exact ih hcons.2 (command.effect strategy table reply) after

/-- A query that takes no rows after a join asks for the same texts in the same order, leaves the
source the same and fails with the same error, whether its joins hash or merge.  If it succeeds, its two
tables have one header, and their rows can be paired off so that paired rows are equal. -/
theorem run_strategies_agree (source : Source σ) (commands : List Command)
    (h : NoTakeAfterJoin commands) (state : σ) :
    ((runCommands source.recorded .hash commands).outcome ([], state)).2
        = ((runCommands source.recorded .sortMerge commands).outcome ([], state)).2 ∧
      Work.Agree
        (fun a b => a.columns = b.columns ∧ a.index = b.index ∧
          Multiset.Rel Row.Equal a.rows b.rows)
        ((runCommands source.recorded .hash commands).outcome ([], state)).1
        ((runCommands source.recorded .sortMerge commands).outcome ([], state)).1 := by
  have hruns := agree_of_runs source.recorded .hash .sortMerge h Table.empty ([], state)
  exact ⟨hruns.1, .mono (fun a b hab => ⟨hab.columns, hab.index, hab.rows⟩) hruns.2⟩

/-- Two tables whose keys stand in no order and in different forms. -/
def twoTables : Source Unit :=
  .fixed fun name => .ok (if name = "left" then "k,a\n2,x\n1,y\n" else "k,b\n1,u\n2.0,v\n")

/-- The strategies answer with the same rows, each in its own order. -/
theorem run_strategies_agree_reordered :
    NoTakeAfterJoin [.load "left", .join "right" "k"] ∧
    ∃ a b : Table,
      (runCommands twoTables.recorded .hash [.load "left", .join "right" "k"]).outcome ([], ())
        = (.ok a, (["right", "left"], ())) ∧
      (runCommands twoTables.recorded .sortMerge [.load "left", .join "right" "k"]).outcome ([], ())
        = (.ok b, (["right", "left"], ())) ∧
      a.rows = [[.int 2, .text "x", .text "v"], [.int 1, .text "y", .text "u"]] ∧
      b.rows = [[.int 1, .text "y", .text "u"], [.int 2, .text "x", .text "v"]] ∧
      Multiset.Rel Row.Equal a.rows b.rows := by
  have h : NoTakeAfterJoin [.load "left", .join "right" "k"] := by decide
  have hagree := (run_strategies_agree twoTables _ h ()).2
  have hl : IsLastPosition "k" (Table.empty.load "k,a\n2,x\n1,y\n").columns 0 :=
    isLastPosition_of_lastPosition (by decide +kernel)
  have hr : IsLastPosition "k" (Table.empty.load "k,b\n1,u\n2.0,v\n").columns 0 :=
    isLastPosition_of_lastPosition (by decide +kernel)
  have hsorted : StablySorted 0 (Table.empty.load "k,a\n2,x\n1,y\n").rows
      [[.int 1, .text "y"], [.int 2, .text "x"]] := by decide +kernel
  refine ⟨h, _, _, rfl, rfl, ?_, ?_, ?_⟩
  · show (Table.hashJoin (Table.empty.load "k,a\n2,x\n1,y\n")
      (Table.empty.load "k,b\n1,u\n2.0,v\n") "k").rows = _
    rw [Table.hashJoin_of_isLastPosition hl hr]
    decide +kernel
  · show (Table.sortMergeJoin (Table.empty.load "k,a\n2,x\n1,y\n")
      (Table.empty.load "k,b\n1,u\n2.0,v\n") "k").rows = _
    rw [Table.sortMergeJoin_of_isLastPosition hl hr,
      (stablySorted_sortedBy 0 _).unique hsorted]
    decide +kernel
  · cases hagree with
    | ok hab => exact hab.2.2

end CsvQuery

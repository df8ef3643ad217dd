/-
  CsvQuery.Proofs.Join.EquiJoin — the join by buckets is the inner equi-join.

  What a join on a column means is a nested loop: every left row with every right row whose cell is
  equal.  Rows with equal cells share a bucket because equal cells, and no others, have one key, so
  looking a left row up gives its partners in their order and the two lists of pairs are the same.

  Main results:
    • `Buckets.rows_ofRows` — a bucket holds the rows with an equal cell, in their order
    • `hashPairs_eq_equalPairs` — the buckets find the pairs of the nested loop
    • `countP_equalPairs` — `k` left rows and `m` right rows of one value make `k * m` pairs
    • `hashJoin_eq_nested_loop` — the join by buckets, column by column and row by row
-/
import CsvQuery.Proofs.Cell.Key
import CsvQuery.Proofs.Table.Columns
import CsvQuery.Table.Join

namespace CsvQuery

/-! ## §1. The nested loop -/

/-- Every left row with every right row whose cell is equal, in the order of a nested loop. -/
def equalPairs (leftPosition rightPosition : Nat) (left right : List Row) : List (Row × Row) :=
  left.flatMap fun l =>
    (right.filter fun r => l.cell leftPosition == r.cell rightPosition).map fun r => (l, r)

section Pairs

variable {p q : Nat}

theorem equalPairs_cons (l : Row) (left right : List Row) :
    equalPairs p q (l :: left) right
      = ((right.filter fun r => l.cell p == r.cell q).map fun r => (l, r))
        ++ equalPairs p q left right := rfl

theorem mem_equalPairs {left right : List Row} {pair : Row × Row} :
    pair ∈ equalPairs p q left right
      ↔ pair.1 ∈ left ∧ pair.2 ∈ right ∧ (pair.1.cell p == pair.2.cell q) = true := by
  obtain ⟨l, r⟩ := pair
  simp only [equalPairs, List.mem_flatMap, List.mem_map, List.mem_filter, Prod.mk.injEq]
  constructor
  · intro h
    obtain ⟨l', hl, r', ⟨hr, heq⟩, hleft, hright⟩ := h
    subst hleft hright
    exact ⟨hl, hr, heq⟩
  · intro h
    obtain ⟨hl, hr, heq⟩ := h
    exact ⟨l, hl, r, ⟨hr, heq⟩, rfl, rfl⟩

/-- The rows with an equal cell make as many pairs as there are ways to choose one of each side. -/
theorem countP_equalPairs (cell : Cell) (left right : List Row) :
    (equalPairs p q left right).countP (fun pair => pair.1.cell p == cell)
      = left.countP (fun l => l.cell p == cell) * right.countP (fun r => r.cell q == cell) := by
  induction left with
  | nil => simp [equalPairs]
  | cons l left ih =>
    rw [equalPairs_cons, List.countP_append, ih, List.countP_map, List.countP_cons]
    by_cases hl : (l.cell p == cell) = true
    · -- the partners of this row are the right rows with the cell that is counted
      have hpartners : (fun r : Row => l.cell p == r.cell q) = fun r => r.cell q == cell := by
        funext r
        rw [BEq.congr_left hl, BEq.comm]
      have hall : ((fun pair : Row × Row => pair.1.cell p == cell) ∘ fun r => (l, r))
          = fun _ => true := by
        funext r
        exact hl
      rw [hall, hpartners, List.countP_true, ← List.countP_eq_length_filter, if_pos hl,
        Nat.add_mul, Nat.one_mul, Nat.add_comm]
    · have hnone : ((fun pair : Row × Row => pair.1.cell p == cell) ∘ fun r => (l, r))
          = fun _ => false := by
        funext r
        exact eq_false_of_ne_true hl
      rw [hnone, List.countP_false, Function.const_apply, if_neg hl, Nat.zero_add, Nat.add_zero]

end Pairs

/-! ## §2. Buckets -/

/-- A bucket holds the rows whose cell is equal to the one looked up, in their order. -/
theorem Buckets.rows_ofRows (position : Nat) (cell : Cell) (rows : List Row) :
    (Buckets.ofRows position rows).rows cell
      = rows.filter fun row => cell == row.cell position := by
  induction rows with
  | nil => simp [Buckets.ofRows, Buckets.rows]
  | cons row rows ih =>
    show ((Buckets.ofRows position rows).insert (row.cell position).key
      (row :: (Buckets.ofRows position rows).rows (row.cell position))).getD cell.key [] = _
    rw [Std.HashMap.getD_insert, List.filter_cons]
    -- the row goes to the bucket that is looked up exactly when its key is the cell's
    by_cases heq : (cell == row.cell position) = true
    · have hkey := (Cell.key_eq_key_iff cell (row.cell position)).mpr heq
      rw [if_pos heq, if_pos (beq_iff_eq.mpr hkey.symm), ← ih]
      unfold Buckets.rows
      rw [hkey]
    · have hkey : ¬((row.cell position).key == cell.key) = true := by
        intro hkey
        exact heq ((Cell.key_eq_key_iff cell (row.cell position)).mp (beq_iff_eq.mp hkey).symm)
      rw [if_neg heq, if_neg hkey]
      exact ih

/-- The buckets find the pairs of the nested loop, in the same order. -/
theorem hashPairs_eq_equalPairs (p q : Nat) (left right : List Row) :
    hashPairs p q left right = equalPairs p q left right := by
  unfold hashPairs equalPairs
  simp only [Buckets.rows_ofRows]

/-! ## §3. Joins -/

namespace Table

variable {pairs : Nat → Nat → List Row → List Row → List (Row × Row)}
variable {left right : Table} {column : String}

/-- Where both sides have the column, the joined rows are those of the pairs that the strategy finds. -/
theorem joinWith_of_isLastPosition {p q : Nat} (hl : IsLastPosition column left.columns p)
    (hr : IsLastPosition column right.columns q) :
    joinWith pairs left right column
      = ⟨left.columns ++ right.columns.eraseIdx q,
          (pairs p q left.rows right.rows).map (joinRow q)⟩ := by
  have hp : left.position column = some p := lastPosition_eq_some_iff.mpr hl
  have hq : right.position column = some q := lastPosition_eq_some_iff.mpr hr
  simp only [joinWith, hp, hq]

/-- Where a side lacks the column, nothing is joined. -/
theorem joinWith_of_position_eq_none
    (h : left.position column = none ∨ right.position column = none) :
    joinWith pairs left right column = empty := by
  unfold joinWith
  rcases h with h | h
  · rw [h]
  · rw [h]
    cases left.position column <;> rfl

/-- A column leads to a position on both sides, or else one side lacks it. -/
theorem positions_cases (left right : Table) (column : String) :
    (left.position column = none ∨ right.position column = none) ∨
      ∃ p q, IsLastPosition column left.columns p ∧ IsLastPosition column right.columns q := by
  cases hp : left.position column with
  | none => exact .inl (.inl rfl)
  | some p =>
    cases hq : right.position column with
    | none => exact .inl (.inr rfl)
    | some q =>
      exact .inr ⟨p, q, isLastPosition_of_lastPosition hp, isLastPosition_of_lastPosition hq⟩

/-- A hash join joins all pairs with equal keys, in the order of the nested loop. -/
theorem hashJoin_of_isLastPosition {p q : Nat} (hl : IsLastPosition column left.columns p)
    (hr : IsLastPosition column right.columns q) :
    left.hashJoin right column
      = ⟨left.columns ++ right.columns.eraseIdx q,
          (equalPairs p q left.rows right.rows).map (joinRow q)⟩ := by
  rw [← hashPairs_eq_equalPairs]
  exact joinWith_of_isLastPosition hl hr

/-- The join by buckets is the inner equi-join. -/
theorem hashJoin_eq_nested_loop (left right : Table) (column : String) :
    (column ∉ left.index.map Prod.fst ∨ column ∉ right.index.map Prod.fst →
      left.hashJoin right column = empty ∧ (left.hashJoin right column).index = []) ∧
    ∀ p q, IsLastPosition column left.columns p → IsLastPosition column right.columns q →
      (left.hashJoin right column).columns = left.columns ++ right.columns.eraseIdx q ∧
      (left.hashJoin right column).rows
        = (equalPairs p q left.rows right.rows).map (fun pair => pair.1 ++ pair.2.eraseIdx q) ∧
      ∀ cell : Cell,
        (equalPairs p q left.rows right.rows).countP (fun pair => pair.1.cell p == cell)
          = left.rows.countP (fun l => l.cell p == cell)
            * right.rows.countP (fun r => r.cell q == cell) := by
  refine ⟨?_, ?_⟩
  · intro habsent
    rw [not_mem_index_iff, not_mem_index_iff] at habsent
    have hempty : left.hashJoin right column = empty := joinWith_of_position_eq_none habsent
    rw [hempty]
    exact ⟨rfl, rfl⟩
  · intro p q hl hr
    rw [hashJoin_of_isLastPosition hl hr]
    exact ⟨rfl, rfl, fun cell => countP_equalPairs cell left.rows right.rows⟩

/-- Integers meet whole numbers in binary64 form, both zeros meet, and so do values that are no number;
a row too short for the column meets an absent cell.  A column that one side lacks joins nothing. -/
theorem hashJoin_mixed_keys :
    IsLastPosition "k" ["k"] 0 ∧ IsLastPosition "k" ["k", "v", "k"] 2 ∧
    (hashJoin
        ⟨["k"], [[.int 2], [.float .nan], [], [.float (.finite true .zero)], [.text "2"]]⟩
        ⟨["k", "v", "k"], [[.absent, .int 5, .int 0],
          [.absent, .int 6, .float (.ofWord 0x4000000000000000)], [.int 7],
          [.int 8, .int 9, .float .nan]]⟩ "k").rows
      = [[.int 2, .absent, .int 6], [.float .nan, .int 8, .int 9], [.int 7],
          [.float (.finite true .zero), .absent, .int 5]] ∧
    "v" ∉ (index ⟨["k"], [[.int 2]]⟩).map Prod.fst ∧
    hashJoin ⟨["k"], [[.int 2]]⟩ ⟨["k", "v"], [[.int 2, .int 3]]⟩ "v" = empty := by
  have hl : IsLastPosition "k" ["k"] 0 := isLastPosition_of_lastPosition (by decide +kernel)
  have hr : IsLastPosition "k" ["k", "v", "k"] 2 := isLastPosition_of_lastPosition (by decide +kernel)
  have habsent : "v" ∉ (index ⟨["k"], [[.int 2]]⟩).map Prod.fst := by decide +kernel
  refine ⟨hl, hr, ?_, habsent, ((hashJoin_eq_nested_loop _ _ "v").1 (.inl habsent)).1⟩
  rw [((hashJoin_eq_nested_loop _ _ "k").2 0 2 hl hr).2.1]
  decide +kernel

end Table

end CsvQuery

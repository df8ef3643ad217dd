/-
  CsvQuery.Proofs.Join.Merge — the join by sorting and merging agrees with the join by buckets.

  On sorted sides the rounds of the merge find the pairs of the nested loop, in its order.  What a
  round passes over has no partner left: after the run of a cell every cell is greater, so a run below
  the other side's first cell meets nothing there, and two runs of one cell meet each other only.
  Sorting the right side does not change which rows a left row meets nor their order, since the sort
  is stable; sorting the left side changes the order of the pairs and nothing else.

  Main results:
    • `lt_of_mem_afterRun` — past a run of ascending rows all cells are greater
    • `flatten_mergeRounds` — the rounds on ascending rows are the nested loop
    • `sortMergePairs_eq_equalPairs` — the merge pairs the sorted left rows with the right rows
    • `sortMergeJoin_eq_hashJoin_sorted` — the two joins agree up to the order of the left rows
-/
import CsvQuery.Proofs.Join.EquiJoin
import CsvQuery.Proofs.Table.Sorting

namespace CsvQuery

variable {p q : Nat}

/-! ## §1. Runs of ascending rows -/

theorem firstRun_append_afterRun (position : Nat) (cell : Cell) (rows : List Row) :
    firstRun position cell rows ++ afterRun position cell rows = rows :=
  List.takeWhile_append_dropWhile

theorem beq_of_mem_firstRun {cell : Cell} {rows : List Row} {row : Row}
    (h : row ∈ firstRun p cell rows) : (row.cell p == cell) = true :=
  List.all_eq_true.mp List.all_takeWhile row h

/-- What is left after a run is still ascending. -/
theorem ascending_afterRun {rows : List Row} (h : Ascending p rows) (cell : Cell) :
    Ascending p (afterRun p cell rows) :=
  h.sublist (List.dropWhile_sublist _)

/-- Past the run of a cell that no cell is below, all cells are greater. -/
theorem lt_of_mem_afterRun {cell : Cell} {rows : List Row} (h : Ascending p rows)
    (hcell : ∀ row ∈ rows, cell.le (row.cell p) = true) {row : Row}
    (hrow : row ∈ afterRun p cell rows) : compare cell (row.cell p) = .lt := by
  induction rows with
  | nil => cases hrow
  | cons first rows ih =>
    by_cases hfirst : (first.cell p == cell) = true
    · rw [afterRun, List.dropWhile_cons, if_pos hfirst] at hrow
      exact ih h.tail (fun other hother => hcell other (List.mem_cons_of_mem _ hother)) hrow
    · -- the run ends here, so this cell is greater, and the ones behind it are no less
      rw [afterRun, List.dropWhile_cons, if_neg hfirst] at hrow
      have hlt : compare cell (first.cell p) = .lt := by
        apply Cell.lt_of_le_of_not_beq (hcell first List.mem_cons_self)
        rw [BEq.comm]
        exact hfirst
      exact Std.TransCmp.lt_of_lt_of_isLE hlt (h.le_of_mem hrow)

/-- Past the first run of ascending rows all cells are greater than the first one. -/
theorem lt_of_mem_afterRun_first {first row : Row} {rows : List Row}
    (h : Ascending p (first :: rows))
    (hrow : row ∈ afterRun p (first.cell p) (first :: rows)) :
    compare (first.cell p) (row.cell p) = .lt :=
  lt_of_mem_afterRun h (fun _ hother => h.le_of_mem hother) hrow

/-! ## §2. Pairs along runs -/

theorem equalPairs_nil_right (left : List Row) : equalPairs p q left [] = [] := by
  induction left with
  | nil => rfl
  | cons l left ih => rw [equalPairs_cons, ih]; rfl

theorem equalPairs_append_left (left left' right : List Row) :
    equalPairs p q (left ++ left') right
      = equalPairs p q left right ++ equalPairs p q left' right :=
  List.flatMap_append

/-- The nested loop sees of the right rows only the partners of the left ones. -/
theorem equalPairs_congr_right {left right right' : List Row}
    (h : ∀ l ∈ left, right.filter (fun r => l.cell p == r.cell q)
      = right'.filter fun r => l.cell p == r.cell q) :
    equalPairs p q left right = equalPairs p q left right' := by
  induction left with
  | nil => rfl
  | cons l left ih =>
    rw [equalPairs_cons, equalPairs_cons, h l List.mem_cons_self,
      ih fun l' hl' => h l' (List.mem_cons_of_mem _ hl')]

/-- Right rows at the front that no left row meets make no pairs. -/
theorem equalPairs_append_eq_right {left right right' : List Row}
    (h : ∀ l ∈ left, ∀ r ∈ right, ¬(l.cell p == r.cell q) = true) :
    equalPairs p q left (right ++ right') = equalPairs p q left right' := by
  apply equalPairs_congr_right
  intro l hl
  rw [List.filter_append, List.filter_eq_nil_iff.mpr (h l hl), List.nil_append]

/-- Right rows at the end that no left row meets make no pairs. -/
theorem equalPairs_append_eq_left {left right right' : List Row}
    (h : ∀ l ∈ left, ∀ r ∈ right', ¬(l.cell p == r.cell q) = true) :
    equalPairs p q left (right ++ right') = equalPairs p q left right := by
  apply equalPairs_congr_right
  intro l hl
  rw [List.filter_append, List.filter_eq_nil_iff.mpr (h l hl), List.append_nil]

/-- Rows without equal cells do not meet. -/
theorem equalPairs_eq_nil {left right : List Row}
    (h : ∀ l ∈ left, ∀ r ∈ right, ¬(l.cell p == r.cell q) = true) :
    equalPairs p q left right = [] := by
  rw [← equalPairs_nil_right left]
  apply equalPairs_congr_right
  intro l hl
  rw [List.filter_eq_nil_iff.mpr (h l hl)]
  rfl

/-- Two runs of one cell make every pair. -/
theorem equalPairs_eq_allPairs {left right : List Row}
    (h : ∀ l ∈ left, ∀ r ∈ right, (l.cell p == r.cell q) = true) :
    equalPairs p q left right = allPairs left right := by
  induction left with
  | nil => rfl
  | cons l left ih =>
    show _ = (right.map fun r => (l, r)) ++ allPairs left right
    rw [equalPairs_cons, List.filter_eq_self.mpr (h l List.mem_cons_self),
      ih fun l' hl' => h l' (List.mem_cons_of_mem _ hl')]

/-! ## §3. Rounds -/

section Rounds

variable {l r : Row} {left right : List Row}

/-- A left run below the first right cell meets no right row, as the right rows are ascending. -/
theorem equalPairs_of_lt (hr : Ascending q (r :: right))
    (hlt : compare (l.cell p) (r.cell q) = .lt) :
    equalPairs p q (l :: left) (r :: right)
      = equalPairs p q (afterRun p (l.cell p) (l :: left)) (r :: right) := by
  have hnone : ∀ l' ∈ firstRun p (l.cell p) (l :: left), ∀ r' ∈ r :: right,
      ¬(l'.cell p == r'.cell q) = true := by
    intro l' hl' r' hr'
    have hbelow : compare (l.cell p) (r'.cell q) = .lt :=
      Std.TransCmp.lt_of_lt_of_isLE hlt (hr.le_of_mem hr')
    rw [BEq.congr_left (beq_of_mem_firstRun hl')]
    exact Cell.not_beq_of_lt hbelow
  conv => lhs; rw [← firstRun_append_afterRun p (l.cell p) (l :: left)]
  rw [equalPairs_append_left, equalPairs_eq_nil hnone, List.nil_append]

/-- A right run below the first left cell meets no left row, as the left rows are ascending. -/
theorem equalPairs_of_gt (hl : Ascending p (l :: left))
    (hgt : compare (l.cell p) (r.cell q) = .gt) :
    equalPairs p q (l :: left) (r :: right)
      = equalPairs p q (l :: left) (afterRun q (r.cell q) (r :: right)) := by
  have hnone : ∀ l' ∈ l :: left, ∀ r' ∈ firstRun q (r.cell q) (r :: right),
      ¬(l'.cell p == r'.cell q) = true := by
    intro l' hl' r' hr'
    have hbelow : compare (r.cell q) (l'.cell p) = .lt :=
      Std.TransCmp.lt_of_lt_of_isLE (Std.OrientedCmp.lt_of_gt hgt) (hl.le_of_mem hl')
    rw [BEq.congr_right (beq_of_mem_firstRun hr'), BEq.comm]
    exact Cell.not_beq_of_lt hbelow
  conv => lhs; rw [← firstRun_append_afterRun q (r.cell q) (r :: right)]
  rw [equalPairs_append_eq_right hnone]

/-- Two first runs of one cell meet each other, and neither meets what follows the other. -/
theorem equalPairs_of_eq (hl : Ascending p (l :: left)) (hr : Ascending q (r :: right))
    (heq : compare (l.cell p) (r.cell q) = .eq) :
    equalPairs p q (l :: left) (r :: right)
      = allPairs (firstRun p (l.cell p) (l :: left)) (firstRun q (r.cell q) (r :: right))
        ++ equalPairs p q (afterRun p (l.cell p) (l :: left))
            (afterRun q (r.cell q) (r :: right)) := by
  have hcell : (l.cell p == r.cell q) = true := Cell.beq_iff_compare.mpr heq
  have hall : ∀ l' ∈ firstRun p (l.cell p) (l :: left),
      ∀ r' ∈ firstRun q (r.cell q) (r :: right), (l'.cell p == r'.cell q) = true := by
    intro l' hl' r' hr'
    rw [BEq.congr_left (beq_of_mem_firstRun hl'), BEq.congr_right (beq_of_mem_firstRun hr')]
    exact hcell
  have hleft : ∀ l' ∈ firstRun p (l.cell p) (l :: left),
      ∀ r' ∈ afterRun q (r.cell q) (r :: right), ¬(l'.cell p == r'.cell q) = true := by
    intro l' hl' r' hr'
    rw [BEq.congr_left (beq_of_mem_firstRun hl'), BEq.congr_left hcell]
    exact Cell.not_beq_of_lt (lt_of_mem_afterRun_first hr hr')
  have hright : ∀ l' ∈ afterRun p (l.cell p) (l :: left),
      ∀ r' ∈ firstRun q (r.cell q) (r :: right), ¬(l'.cell p == r'.cell q) = true := by
    intro l' hl' r' hr'
    rw [BEq.congr_right (beq_of_mem_firstRun hr'), ← BEq.congr_right hcell, BEq.comm]
    exact Cell.not_beq_of_lt (lt_of_mem_afterRun_first hl hl')
  conv =>
    lhs
    rw [← firstRun_append_afterRun p (l.cell p) (l :: left),
      ← firstRun_append_afterRun q (r.cell q) (r :: right)]
  rw [equalPairs_append_left, equalPairs_append_eq_left hleft,
    equalPairs_append_eq_right hright, equalPairs_eq_allPairs hall]

/-- The rounds on ascending rows are the nested loop. -/
theorem flatten_mergeRounds (hl : Ascending p left) (hr : Ascending q right) :
    (mergeRounds p q left right).flatten = equalPairs p q left right := by
  -- the cases are those of a round, and both sides stay ascending
  fun_induction mergeRounds p q left right with
  | case1 right => rfl
  | case2 l left => exact (equalPairs_nil_right _).symm
  | case3 l left r right leftCell rightCell hlt ih =>
    rw [List.flatten_cons, List.nil_append, ih (ascending_afterRun hl _) hr]
    exact (equalPairs_of_lt hr hlt).symm
  | case4 l left r right leftCell rightCell hgt ih =>
    rw [List.flatten_cons, List.nil_append, ih hl (ascending_afterRun hr _)]
    exact (equalPairs_of_gt hl hgt).symm
  | case5 l left r right leftCell rightCell heq ih =>
    rw [List.flatten_cons, ih (ascending_afterRun hl _) (ascending_afterRun hr _)]
    exact (equalPairs_of_eq hl hr heq).symm

end Rounds

/-- The merge pairs the sorted left rows with the right rows in their old order. -/
theorem sortMergePairs_eq_equalPairs (left right : List Row) :
    sortMergePairs p q left right = equalPairs p q (sortedBy p left) right := by
  have hl := stablySorted_sortedBy p left
  have hr := stablySorted_sortedBy q right
  rw [sortMergePairs, flatten_mergeRounds hl.ascending hr.ascending]
  -- the right rows that a left row meets are those with its cell, which the sort left in order
  exact equalPairs_congr_right fun l _ => hr.stable (l.cell p)

/-- Left rows in another order find the same pairs in another order. -/
theorem equalPairs_perm_left {left left' : List Row} (h : left.Perm left') (right : List Row) :
    (equalPairs p q left right).Perm (equalPairs p q left' right) :=
  h.flatMap_right _

/-! ## §4. The two joins -/

namespace Table

/-- A sort-merge join joins all pairs with equal keys, in the order of the sorted left side. -/
theorem sortMergeJoin_of_isLastPosition {left right : Table} {column : String}
    (hl : IsLastPosition column left.columns p) (hr : IsLastPosition column right.columns q) :
    left.sortMergeJoin right column
      = ⟨left.columns ++ right.columns.eraseIdx q,
          (equalPairs p q (sortedBy p left.rows) right.rows).map (joinRow q)⟩ := by
  rw [← sortMergePairs_eq_equalPairs]
  exact joinWith_of_isLastPosition hl hr

/-- The join by merging has the rows of the join by buckets of the sorted left table.  So the two
joins have the same rows, each as many times, under the same columns. -/
theorem sortMergeJoin_eq_hashJoin_sorted (left right : Table) (column : String) :
    (left.sortMergeJoin right column).columns = (left.hashJoin right column).columns ∧
    (left.sortMergeJoin right column).index = (left.hashJoin right column).index ∧
    (left.sortMergeJoin right column).rows.Perm (left.hashJoin right column).rows ∧
    ∀ p, IsLastPosition column left.columns p →
      (∃ sorted, StablySorted p left.rows sorted) ∧
      ∀ sorted, StablySorted p left.rows sorted →
        (left.sortMergeJoin right column).rows
          = (hashJoin ⟨left.columns, sorted⟩ right column).rows := by
  rcases positions_cases left right column with hnone | ⟨p, q, hl, hr⟩
  · -- a column that one side lacks gives the empty table on both ways
    have hmerge : left.sortMergeJoin right column = empty := joinWith_of_position_eq_none hnone
    have hhash : left.hashJoin right column = empty := joinWith_of_position_eq_none hnone
    rw [hmerge, hhash]
    refine ⟨rfl, rfl, List.Perm.refl _, ?_⟩
    intro p hl
    refine ⟨⟨_, stablySorted_sortedBy p left.rows⟩, ?_⟩
    intro sorted _
    have hsorted : hashJoin ⟨left.columns, sorted⟩ right column = empty :=
      joinWith_of_position_eq_none hnone
    rw [hsorted]
  · rw [sortMergeJoin_of_isLastPosition hl hr, hashJoin_of_isLastPosition hl hr]
    have hperm := (stablySorted_sortedBy p left.rows).perm
    refine ⟨rfl, rfl, (equalPairs_perm_left hperm right.rows).map _, ?_⟩
    intro p' hl'
    have hp : p' = p := hl'.unique hl
    subst hp
    refine ⟨⟨_, stablySorted_sortedBy p' left.rows⟩, ?_⟩
    intro sorted hsorted
    have hl'' : IsLastPosition column (⟨left.columns, sorted⟩ : Table).columns p' := hl
    rw [hashJoin_of_isLastPosition hl'' hr, hsorted.unique (stablySorted_sortedBy p' left.rows)]

/-- The runs of equal keys cross the forms of numbers, and the left rows keep their order within one. -/
theorem sortMergeJoin_mixed_keys :
    IsLastPosition "k" ["k", "l"] 0 ∧
    StablySorted 0
      [[.text "2", .int 0], [.float .nan], [.int 2, .int 1], [],
        [.float (.ofWord 0x4000000000000000), .int 2]]
      [[], [.int 2, .int 1], [.float (.ofWord 0x4000000000000000), .int 2], [.float .nan],
        [.text "2", .int 0]] ∧
    (sortMergeJoin
        ⟨["k", "l"], [[.text "2", .int 0], [.float .nan], [.int 2, .int 1], [],
          [.float (.ofWord 0x4000000000000000), .int 2]]⟩
        ⟨["k", "r"], [[.float .nan, .int 5], [.int 2, .int 6], [.int 2, .int 7], [.absent]]⟩
        "k").rows
      = [[], [.int 2, .int 1, .int 6], [.int 2, .int 1, .int 7],
          [.float (.ofWord 0x4000000000000000), .int 2, .int 6],
          [.float (.ofWord 0x4000000000000000), .int 2, .int 7], [.float .nan, .int 5]] := by
  have hl : IsLastPosition "k" ["k", "l"] 0 := isLastPosition_of_lastPosition (by decide +kernel)
  have hr : IsLastPosition "k" ["k", "r"] 0 := isLastPosition_of_lastPosition (by decide +kernel)
  have hsorted : StablySorted 0
      [[.text "2", .int 0], [.float .nan], [.int 2, .int 1], [],
        [.float (.ofWord 0x4000000000000000), .int 2]]
      [[], [.int 2, .int 1], [.float (.ofWord 0x4000000000000000), .int 2], [.float .nan],
        [.text "2", .int 0]] := by decide +kernel
  refine ⟨hl, hsorted, ?_⟩
  rw [((sortMergeJoin_eq_hashJoin_sorted _ _ "k").2.2.2 0 hl).2 _ hsorted,
    hashJoin_of_isLastPosition hl hr]
  decide +kernel

end Table

end CsvQuery

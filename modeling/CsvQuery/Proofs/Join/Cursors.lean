/-
  CsvQuery.Proofs.Join.Cursors — the merge by cursors comes to an end inside its bounds.

  On ascending sides a run begins at its start and is never empty, since every cell is equal to itself, and
  behind it all cells are greater.  So a round looks at rows that are there, moves at least one cursor
  forward, and leaves the least cell ahead of the cursors behind them for good: no cell that is still ahead
  is equal to it.  Each round uses up one of the values that the two sides have, and when none is left the
  rounds are over.  What the cursors have paired by then is what the merge of lists pairs.

  Main results:
    • `isRunEnd_runEnd` — where a run ends
    • `exists_round` — the step: what a round does
    • `after_underway` — the run: what any number of rounds has done
    • `merge_by_cursors` — the rounds stay inside their bounds and end, at most one for each value
-/
import CsvQuery.Proofs.Join.Merge
import CsvQuery.Proofs.Table.Counting
import CsvQuery.Table.Join.Cursors

namespace CsvQuery

/-! ## §1. Runs by position -/

/-- The rows from the start up to the stop are the run of the first of them: their cells are equal to its
cell, and the row at the stop, if there is one, has a greater cell. -/
structure IsRunEnd (position : Nat) (rows : List Row) (start stop : Nat) : Prop where
  start_lt : start < stop
  stop_le : stop ≤ rows.length
  equal : ∀ first ∈ rows[start]?, ∀ i, start ≤ i → i < stop → ∀ row ∈ rows[i]?,
    (row.cell position == first.cell position) = true
  greater : ∀ first ∈ rows[start]?, ∀ row ∈ rows[stop]?,
    compare (first.cell position) (row.cell position) = .lt

section Runs

variable {position start : Nat} {first : Row} {rows : List Row}

theorem rowAt_eq_ok (h : rows[start]? = some first) : rowAt rows start = .ok first := by
  unfold rowAt
  rw [h]

/-- Taking the rows between two places inside the list does not fail. -/
theorem rowsBetween_eq_ok {stop : Nat} (hstart : start ≤ stop) (hstop : stop ≤ rows.length) :
    rowsBetween rows start stop = .ok ((rows.take stop).drop start) := by
  unfold rowsBetween
  rw [if_pos ⟨hstart, hstop⟩]

/-- The number of rows in the run of the row at the start. -/
def runLength (position : Nat) (first : Row) (rows : List Row) (start : Nat) : Nat :=
  (firstRun position (first.cell position) (rows.drop start)).length

theorem drop_eq_cons (h : rows[start]? = some first) :
    rows.drop start = first :: rows.drop (start + 1) := by
  obtain ⟨hlt, hfirst⟩ := List.getElem?_eq_some_iff.mp h
  rw [List.drop_eq_getElem_cons hlt, hfirst]

/-- A run has at least the row that it starts with. -/
theorem runLength_pos (h : rows[start]? = some first) : 0 < runLength position first rows start := by
  simp [runLength, firstRun, drop_eq_cons h]

theorem add_runLength_le (h : rows[start]? = some first) :
    start + runLength position first rows start ≤ rows.length := by
  obtain ⟨hlt, -⟩ := List.getElem?_eq_some_iff.mp h
  have hle : runLength position first rows start ≤ (rows.drop start).length :=
    (List.takeWhile_sublist _).length_le
  rw [List.length_drop] at hle
  omega

/-- Looking for the end of a run does not fail, and the end is behind as many rows as the run has. -/
theorem runEnd_eq_ok (h : rows[start]? = some first) :
    runEnd position rows start = .ok (start + runLength position first rows start) := by
  obtain ⟨hlt, -⟩ := List.getElem?_eq_some_iff.mp h
  unfold runEnd
  rw [rowAt_eq_ok h]
  show (rowsBetween rows start rows.length >>= _) = _
  rw [rowsBetween_eq_ok (Nat.le_of_lt hlt) (Nat.le_refl _), List.take_length]
  rfl

/-- The run is so many rows from the front of what stands at the start. -/
theorem firstRun_eq_take (position : Nat) (first : Row) (rows : List Row) (start : Nat) :
    firstRun position (first.cell position) (rows.drop start)
      = (rows.drop start).take (runLength position first rows start) :=
  List.prefix_iff_eq_take.mp (List.takeWhile_prefix _)

/-- The rows between the ends of a run are the first run of what is left of the list. -/
theorem rowsBetween_run (h : rows[start]? = some first) :
    rowsBetween rows start (start + runLength position first rows start)
      = .ok (firstRun position (first.cell position) (rows.drop start)) := by
  rw [rowsBetween_eq_ok (Nat.le_add_right _ _) (add_runLength_le h), List.drop_take,
    Nat.add_sub_cancel_left, firstRun_eq_take]

/-- What stands behind the run is what is left after it. -/
theorem drop_run (position : Nat) (first : Row) (rows : List Row) (start : Nat) :
    rows.drop (start + runLength position first rows start)
      = afterRun position (first.cell position) (rows.drop start) := by
  have hparts := firstRun_append_afterRun position (first.cell position) (rows.drop start)
  rw [← List.drop_drop]
  conv => lhs; rw [← hparts]
  exact List.drop_left

/-- On ascending rows, nothing from a row on is below its cell. -/
theorem lt_of_mem_drop (hrows : Ascending position rows) (h : rows[start]? = some first) {least : Cell}
    (hleast : compare least (first.cell position) = .lt) :
    ∀ row ∈ rows.drop start, compare least (row.cell position) = .lt := by
  intro row hrow
  have hbehind : Ascending position (rows.drop start) := hrows.sublist (List.drop_sublist _ _)
  rw [drop_eq_cons h] at hbehind hrow
  exact Std.TransCmp.lt_of_lt_of_isLE hleast (hbehind.le_of_mem hrow)

/-- On ascending rows, all that stands behind a run is greater than the cell of the run. -/
theorem lt_of_mem_drop_run (hrows : Ascending position rows) (h : rows[start]? = some first) :
    ∀ row ∈ rows.drop (start + runLength position first rows start),
      compare (first.cell position) (row.cell position) = .lt := by
  intro row hrow
  have hbehind : Ascending position (rows.drop start) := hrows.sublist (List.drop_sublist _ _)
  rw [drop_run] at hrow
  rw [drop_eq_cons h] at hbehind hrow
  exact lt_of_mem_afterRun_first hbehind hrow

/-- On ascending rows the run of a row ends where its cell does. -/
theorem isRunEnd_runEnd (hrows : Ascending position rows) (h : rows[start]? = some first) :
    IsRunEnd position rows start (start + runLength position first rows start) where
  start_lt := Nat.lt_add_of_pos_right (runLength_pos h)
  stop_le := add_runLength_le h
  equal := by
    intro first' hfirst' i hstart hstop row hrow
    have hfirst : first = first' := Option.some.inj (h.symm.trans hfirst')
    subst hfirst
    -- the row stands in the run, at its place counted from the start
    have hmem : row ∈ firstRun position (first.cell position) (rows.drop start) := by
      apply List.mem_of_getElem? (i := i - start)
      rw [firstRun_eq_take, List.getElem?_take_of_lt (by omega), List.getElem?_drop]
      rw [Nat.add_sub_of_le hstart]
      exact hrow
    exact beq_of_mem_firstRun hmem
  greater := by
    intro first' hfirst' row hrow
    have hfirst : first = first' := Option.some.inj (h.symm.trans hfirst')
    subst hfirst
    apply lt_of_mem_drop_run hrows h
    rw [drop_eq_cons hrow]
    exact List.mem_cons_self

end Runs

/-! ## §2. One round -/

section Rounds

variable {p q : Nat} {left right : List Row} {l r : Row} {c next : Cursors}

namespace Cursors

/-- The cells that the cursors have not passed. -/
def ahead (p q : Nat) (left right : List Row) (c : Cursors) : List Cell :=
  (left.drop c.left).map (fun row => row.cell p) ++ (right.drop c.right).map fun row => row.cell q

theorem forall_mem_ahead {P : Cell → Prop} : (∀ cell ∈ c.ahead p q left right, P cell) ↔
    (∀ row ∈ left.drop c.left, P (row.cell p)) ∧ ∀ row ∈ right.drop c.right, P (row.cell q) := by
  unfold ahead
  rw [List.forall_mem_append, List.forall_mem_map, List.forall_mem_map]

/-- The pairs that the merge of lists finds in the rows that the cursors have not passed. -/
def pairsAhead (p q : Nat) (left right : List Row) (c : Cursors) : List (Row × Row) :=
  (mergeRounds p q (left.drop c.left) (right.drop c.right)).flatten

/-- While the left cell is below the right one, its run is passed. -/
theorem round_of_lt (hl : left[c.left]? = some l) (hr : right[c.right]? = some r)
    (h : compare (l.cell p) (r.cell q) = .lt) :
    c.round p q left right = .ok { c with left := c.left + runLength p l left c.left } := by
  simp only [round, rowAt_eq_ok hl, rowAt_eq_ok hr, runEnd_eq_ok hl, bind, Except.bind, h]
  rfl

/-- While the left cell is above the right one, the run on the right is passed. -/
theorem round_of_gt (hl : left[c.left]? = some l) (hr : right[c.right]? = some r)
    (h : compare (l.cell p) (r.cell q) = .gt) :
    c.round p q left right = .ok { c with right := c.right + runLength q r right c.right } := by
  simp only [round, rowAt_eq_ok hl, rowAt_eq_ok hr, runEnd_eq_ok hr, bind, Except.bind, h]
  rfl

/-- Where both cells are equal, both runs are passed, and all their rows are paired. -/
theorem round_of_eq (hl : left[c.left]? = some l) (hr : right[c.right]? = some r)
    (h : compare (l.cell p) (r.cell q) = .eq) :
    c.round p q left right = .ok ⟨c.left + runLength p l left c.left,
      c.right + runLength q r right c.right,
      c.pairs ++ allPairs (firstRun p (l.cell p) (left.drop c.left))
        (firstRun q (r.cell q) (right.drop c.right))⟩ := by
  simp only [round, rowAt_eq_ok hl, rowAt_eq_ok hr, runEnd_eq_ok hl, runEnd_eq_ok hr,
    rowsBetween_run hl, rowsBetween_run hr, bind, Except.bind, h]
  rfl

end Cursors

/-- What a round does: the cursors advance inside the sides, the least cell ahead of them is passed with
all that are equal to it, and the pairs that it has found are the ones that were ahead. -/
structure IsRound (p q : Nat) (left right : List Row) (c next : Cursors) : Prop where
  left_ge : c.left ≤ next.left
  right_ge : c.right ≤ next.right
  advances : c.left + c.right < next.left + next.right
  left_le : next.left ≤ left.length
  right_le : next.right ≤ right.length
  passes : ∃ least ∈ c.ahead p q left right, ∀ cell ∈ next.ahead p q left right,
    compare least cell = .lt
  pairs : next.pairs ++ next.pairsAhead p q left right = c.pairs ++ c.pairsAhead p q left right

theorem mem_ahead_left (hl : left[c.left]? = some l) : l.cell p ∈ c.ahead p q left right := by
  simp [Cursors.ahead, drop_eq_cons hl]

theorem mem_ahead_right (hr : right[c.right]? = some r) : r.cell q ∈ c.ahead p q left right := by
  simp [Cursors.ahead, drop_eq_cons hr]

/-- Passing the run of a lesser cell on the left does all that is asked of a round. -/
theorem isRound_of_lt (hleft : Ascending p left) (hright : Ascending q right)
    (hl : left[c.left]? = some l) (hr : right[c.right]? = some r)
    (h : compare (l.cell p) (r.cell q) = .lt) :
    IsRound p q left right c { c with left := c.left + runLength p l left c.left } where
  left_ge := Nat.le_add_right _ _
  right_ge := Nat.le_refl _
  advances := Nat.add_lt_add_right (Nat.lt_add_of_pos_right (runLength_pos hl)) _
  left_le := add_runLength_le hl
  right_le := Nat.le_of_lt (List.getElem?_eq_some_iff.mp hr).1
  passes := ⟨l.cell p, mem_ahead_left hl,
    Cursors.forall_mem_ahead.mpr ⟨lt_of_mem_drop_run hleft hl, lt_of_mem_drop hright hr h⟩⟩
  pairs := by
    unfold Cursors.pairsAhead
    rw [drop_run, drop_eq_cons hl, drop_eq_cons hr]
    conv => rhs; rw [mergeRounds]
    simp only [h]
    rfl

/-- So does passing the run of a lesser cell on the right. -/
theorem isRound_of_gt (hleft : Ascending p left) (hright : Ascending q right)
    (hl : left[c.left]? = some l) (hr : right[c.right]? = some r)
    (h : compare (l.cell p) (r.cell q) = .gt) :
    IsRound p q left right c { c with right := c.right + runLength q r right c.right } where
  left_ge := Nat.le_refl _
  right_ge := Nat.le_add_right _ _
  advances := Nat.add_lt_add_left (Nat.lt_add_of_pos_right (runLength_pos hr)) _
  left_le := Nat.le_of_lt (List.getElem?_eq_some_iff.mp hl).1
  right_le := add_runLength_le hr
  passes := ⟨r.cell q, mem_ahead_right hr,
    Cursors.forall_mem_ahead.mpr
      ⟨lt_of_mem_drop hleft hl (Std.OrientedCmp.lt_of_gt h), lt_of_mem_drop_run hright hr⟩⟩
  pairs := by
    unfold Cursors.pairsAhead
    rw [drop_run, drop_eq_cons hl, drop_eq_cons hr]
    conv => rhs; rw [mergeRounds]
    simp only [h]
    rfl

/-- So does passing runs of equal cells on both sides, which are paired with each other. -/
theorem isRound_of_eq (hleft : Ascending p left) (hright : Ascending q right)
    (hl : left[c.left]? = some l) (hr : right[c.right]? = some r)
    (h : compare (l.cell p) (r.cell q) = .eq) :
    IsRound p q left right c ⟨c.left + runLength p l left c.left,
      c.right + runLength q r right c.right,
      c.pairs ++ allPairs (firstRun p (l.cell p) (left.drop c.left))
        (firstRun q (r.cell q) (right.drop c.right))⟩ where
  left_ge := Nat.le_add_right _ _
  right_ge := Nat.le_add_right _ _
  advances := Nat.add_lt_add (Nat.lt_add_of_pos_right (runLength_pos hl))
    (Nat.lt_add_of_pos_right (runLength_pos hr))
  left_le := add_runLength_le hl
  right_le := add_runLength_le hr
  passes := by
    refine ⟨l.cell p, mem_ahead_left hl,
      Cursors.forall_mem_ahead.mpr ⟨lt_of_mem_drop_run hleft hl, ?_⟩⟩
    intro row hrow
    exact Std.TransCmp.lt_of_eq_of_lt h (lt_of_mem_drop_run hright hr row hrow)
  pairs := by
    unfold Cursors.pairsAhead
    rw [drop_run, drop_run, drop_eq_cons hl, drop_eq_cons hr]
    conv => rhs; rw [mergeRounds]
    simp only [h]
    rw [List.flatten_cons, List.append_assoc]

/-- As long as both cursors stand at a row, a round finds all the rows that it looks for. -/
theorem exists_round (hleft : Ascending p left) (hright : Ascending q right)
    (h : c.atRows left right = true) :
    ∃ next, c.round p q left right = .ok next ∧ IsRound p q left right c next := by
  simp only [Cursors.atRows, Bool.and_eq_true, decide_eq_true_eq] at h
  obtain ⟨l, hl⟩ : ∃ l, left[c.left]? = some l := ⟨_, List.getElem?_eq_getElem h.1⟩
  obtain ⟨r, hr⟩ : ∃ r, right[c.right]? = some r := ⟨_, List.getElem?_eq_getElem h.2⟩
  cases hcompare : compare (l.cell p) (r.cell q) with
  | lt => exact ⟨_, Cursors.round_of_lt hl hr hcompare, isRound_of_lt hleft hright hl hr hcompare⟩
  | gt => exact ⟨_, Cursors.round_of_gt hl hr hcompare, isRound_of_gt hleft hright hl hr hcompare⟩
  | eq => exact ⟨_, Cursors.round_of_eq hl hr hcompare, isRound_of_eq hleft hright hl hr hcompare⟩

/-! ## §3. All rounds -/

/-- Each of the cells is equal to one of the values. -/
def Covers (values cells : List Cell) : Prop :=
  ∀ cell ∈ cells, ∃ value ∈ values, (value == cell) = true

/-- A round brings no new cells ahead of the cursors. -/
theorem IsRound.ahead_subset (h : IsRound p q left right c next) :
    next.ahead p q left right ⊆ c.ahead p q left right := by
  have hleft : (left.drop next.left).Sublist (left.drop c.left) :=
    List.drop_sublist_drop_left left h.left_ge
  have hright : (right.drop next.right).Sublist (right.drop c.right) :=
    List.drop_sublist_drop_left right h.right_ge
  exact ((hleft.map _).append (hright.map _)).subset

/-- After a round fewer values are enough for what is ahead: the one that was passed is not needed. -/
theorem IsRound.exists_covers (h : IsRound p q left right c next) {values : List Cell}
    (hvalues : Covers values (c.ahead p q left right)) :
    ∃ fewer, fewer.length < values.length ∧ Covers fewer (next.ahead p q left right) := by
  obtain ⟨least, hleast, hpassed⟩ := h.passes
  refine ⟨values.filter fun value => !(value == least), ?_, ?_⟩
  · obtain ⟨value, hvalue, heq⟩ := hvalues least hleast
    apply List.length_filter_lt_length_iff_exists.mpr
    exact ⟨value, hvalue, by simp [heq]⟩
  · intro cell hcell
    obtain ⟨value, hvalue, heq⟩ := hvalues cell (h.ahead_subset hcell)
    refine ⟨value, List.mem_filter.mpr ⟨hvalue, ?_⟩, heq⟩
    -- a value that is equal to both would make the least cell equal to one that is greater
    have hne := Cell.not_beq_of_lt (hpassed cell hcell)
    rw [← BEq.congr_right heq, BEq.comm] at hne
    simpa using hne

/-- What has been done by rounds of which there may be no more than a bound: the cursors stand inside the
sides, as many values as there may be rounds to come are enough for the cells ahead, and the pairs found
and those ahead are the pairs of the two sides. -/
structure Underway (p q : Nat) (left right : List Row) (bound rounds : Nat) (c : Cursors) : Prop where
  left_le : c.left ≤ left.length
  right_le : c.right ≤ right.length
  affordable : ∃ values, rounds + values.length ≤ bound ∧ Covers values (c.ahead p q left right)
  pairs : c.pairs ++ c.pairsAhead p q left right = (mergeRounds p q left right).flatten

section Underway

variable {bound rounds : Nat}

/-- Before the first round all of the budget is left. -/
theorem underway_start {values : List Cell}
    (h : Covers values (Cursors.start.ahead p q left right)) :
    Underway p q left right values.length 0 .start where
  left_le := Nat.zero_le _
  right_le := Nat.zero_le _
  affordable := ⟨values, by omega, h⟩
  pairs := rfl

/-- A round pays for itself: it passes one of the values that are left. -/
theorem Underway.round (h : Underway p q left right bound rounds c)
    (hround : IsRound p q left right c next) : Underway p q left right bound (rounds + 1) next where
  left_le := hround.left_le
  right_le := hround.right_le
  affordable := by
    obtain ⟨values, hbound, hvalues⟩ := h.affordable
    obtain ⟨fewer, hfewer, hcovers⟩ := hround.exists_covers hvalues
    exact ⟨fewer, by omega, hcovers⟩
  pairs := hround.pairs.trans h.pairs

/-- No rows are ahead of a cursor that stands at none, so there are no pairs to come. -/
theorem Underway.pairs_eq (h : Underway p q left right bound rounds c)
    (hend : c.atRows left right = false) : c.pairs = (mergeRounds p q left right).flatten := by
  simp only [Cursors.atRows, Bool.and_eq_false_iff, decide_eq_false_iff_not, Nat.not_lt] at hend
  have hnone : c.pairsAhead p q left right = [] := by
    unfold Cursors.pairsAhead
    rcases hend with hleft | hright
    · rw [List.drop_eq_nil_of_le hleft, mergeRounds]
      rfl
    · rw [List.drop_eq_nil_of_le hright]
      cases left.drop c.left <;> rw [mergeRounds] <;> rfl
  rw [← h.pairs, hnone, List.append_nil]

end Underway

/-- Any number of rounds can be made, and each of them was made if both cursors still stand at a row. -/
theorem after_underway (hleft : Ascending p left) (hright : Ascending q right) {values : List Cell}
    (hvalues : Covers values (Cursors.start.ahead p q left right)) (rounds : Nat) :
    ∃ c, Cursors.after p q left right rounds = .ok c ∧
      ∃ made, Underway p q left right values.length made c ∧
        (c.atRows left right = true → made = rounds) := by
  induction rounds with
  | zero => exact ⟨.start, rfl, 0, underway_start hvalues, fun _ => rfl⟩
  | succ rounds ih =>
    obtain ⟨c, hafter, made, hunderway, hmade⟩ := ih
    by_cases hrows : c.atRows left right = true
    · obtain ⟨next, hnext, hround⟩ := exists_round hleft hright hrows
      refine ⟨next, ?_, rounds + 1, ?_, fun _ => rfl⟩
      · rw [Cursors.after, hafter]
        show (if c.atRows left right = true then c.round p q left right else _) = _
        rw [if_pos hrows, hnext]
      · rw [← hmade hrows]
        exact hunderway.round hround
    · refine ⟨c, ?_, made, hunderway, fun h => absurd h hrows⟩
      rw [Cursors.after, hafter]
      show (if c.atRows left right = true then c.round p q left right else _) = _
      rw [if_neg hrows]
      rfl

end Rounds

/-! ## §4. Sorted sides -/

theorem length_sortedBy (position : Nat) (rows : List Row) :
    (sortedBy position rows).length = rows.length :=
  (stablySorted_sortedBy position rows).perm.length_eq

/-- A run of sorted rows can be looked for from every row. -/
theorem exists_runEnd (position : Nat) (rows : List Row) {start : Nat} (h : start < rows.length) :
    ∃ stop, runEnd position (sortedBy position rows) start = .ok stop ∧
      IsRunEnd position (sortedBy position rows) start stop := by
  have hstart : start < (sortedBy position rows).length := by rwa [length_sortedBy]
  have hfirst := List.getElem?_eq_getElem hstart
  exact ⟨_, runEnd_eq_ok hfirst,
    isRunEnd_runEnd (stablySorted_sortedBy position rows).ascending hfirst⟩

/-- Sorting brings no new cells ahead of the cursors. -/
theorem covers_start (p q : Nat) (left right : List Row) {entries : List (Cell × Nat)}
    (h : IsTally (left.map (fun row => row.cell p) ++ right.map fun row => row.cell q) entries) :
    Covers (entries.map Prod.fst) (Cursors.start.ahead p q (sortedBy p left) (sortedBy q right)) := by
  have hleft := ((stablySorted_sortedBy p left).perm.map fun row => row.cell p)
  have hright := ((stablySorted_sortedBy q right).perm.map fun row => row.cell q)
  intro cell hcell
  exact h.covers cell ((hleft.append hright).mem_iff.mp hcell)

/-- The runs of the sorted sides end where their cells do.  In every round each row that is looked up is
there and one cursor at least moves forward, there are no more rounds than the two sides have values, and
when the rounds are over the pairs are those of the merge of lists. -/
theorem merge_by_cursors (p q : Nat) (left right : List Row) :
    (∀ start < left.length, ∃ stop, runEnd p (sortedBy p left) start = .ok stop ∧
      IsRunEnd p (sortedBy p left) start stop) ∧
    (∀ start < right.length, ∃ stop, runEnd q (sortedBy q right) start = .ok stop ∧
      IsRunEnd q (sortedBy q right) start stop) ∧
    ∃ entries, IsTally (left.map (fun row => row.cell p) ++ right.map fun row => row.cell q) entries ∧
      ∀ rounds, ∃ c, Cursors.after p q (sortedBy p left) (sortedBy q right) rounds = .ok c ∧
        c.left ≤ left.length ∧ c.right ≤ right.length ∧
        (c.atRows (sortedBy p left) (sortedBy q right) = true → rounds < entries.length ∧
          ∃ next, c.round p q (sortedBy p left) (sortedBy q right) = .ok next ∧
            c.left + c.right < next.left + next.right) ∧
        (c.atRows (sortedBy p left) (sortedBy q right) = false →
          c.pairs = sortMergePairs p q left right) := by
  have hleft := (stablySorted_sortedBy p left).ascending
  have hright := (stablySorted_sortedBy q right).ascending
  have htally := isTally_foldl (left.map (fun row => row.cell p) ++ right.map fun row => row.cell q)
  refine ⟨fun start => exists_runEnd p left, fun start => exists_runEnd q right, _, htally, ?_⟩
  intro rounds
  obtain ⟨c, hafter, made, hunderway, hmade⟩ :=
    after_underway hleft hright (covers_start p q left right htally) rounds
  refine ⟨c, hafter, ?_, ?_, ?_, hunderway.pairs_eq⟩
  · rw [← length_sortedBy p left]
    exact hunderway.left_le
  · rw [← length_sortedBy q right]
    exact hunderway.right_le
  · intro hrows
    obtain ⟨next, hnext, hround⟩ := exists_round hleft hright hrows
    -- one more round would still be within the bound
    obtain ⟨values, hbound, -⟩ := (hunderway.round hround).affordable
    rw [List.length_map, hmade hrows] at hbound
    exact ⟨by omega, next, hnext, hround.advances⟩

/-- Not-a-number makes runs like any other value: the last round passes both of them. -/
theorem merge_by_cursors_nan :
    sortedBy 0 [[.float .nan], [.int 2]] = [[.int 2], [.float .nan]] ∧
    sortedBy 0 [[.float .nan], [.float .nan, .int 1]] = [[.float .nan], [.float .nan, .int 1]] ∧
    (∃ stop, runEnd 0 [[.float .nan], [.float .nan, .int 1]] 0 = .ok stop ∧
      IsRunEnd 0 [[.float .nan], [.float .nan, .int 1]] 0 stop) ∧
    (∃ c next, Cursors.after 0 0 [[.int 2], [.float .nan]] [[.float .nan], [.float .nan, .int 1]] 1 = .ok c ∧
      c.atRows [[.int 2], [.float .nan]] [[.float .nan], [.float .nan, .int 1]] = true ∧
      c.round 0 0 [[.int 2], [.float .nan]] [[.float .nan], [.float .nan, .int 1]] = .ok next ∧
      c.left + c.right < next.left + next.right) ∧
    ∃ c, Cursors.after 0 0 [[.int 2], [.float .nan]] [[.float .nan], [.float .nan, .int 1]] 2 = .ok c ∧
      c.atRows [[.int 2], [.float .nan]] [[.float .nan], [.float .nan, .int 1]] = false ∧
      sortMergePairs 0 0 [[.float .nan], [.int 2]] [[.float .nan], [.float .nan, .int 1]]
        = [([.float .nan], [.float .nan]), ([.float .nan], [.float .nan, .int 1])] := by
  have hleft : sortedBy 0 [[.float .nan], [.int 2]] = [[.int 2], [.float .nan]] :=
    (stablySorted_sortedBy 0 _).unique (by decide +kernel)
  have hright : sortedBy 0 [[.float .nan], [.float .nan, .int 1]]
      = [[.float .nan], [.float .nan, .int 1]] :=
    (stablySorted_sortedBy 0 _).unique (by decide +kernel)
  obtain ⟨-, hruns, entries, -, hrounds⟩ :=
    merge_by_cursors 0 0 [[.float .nan], [.int 2]] [[.float .nan], [.float .nan, .int 1]]
  have hrun := hruns 0 (by decide)
  rw [hleft, hright] at hrounds
  rw [hright] at hrun
  obtain ⟨c, hc, -, -, hgoes, -⟩ := hrounds 1
  obtain ⟨d, hd, -, -, -, hends⟩ := hrounds 2
  -- the second round passes both runs of not-a-number
  have hone : Except.ok c = Except.ok ⟨1, 0, []⟩ := hc.symm.trans (by decide +kernel)
  have htwo : Except.ok d = Except.ok ⟨2, 2, [([.float .nan], [.float .nan]),
      ([.float .nan], [.float .nan, .int 1])]⟩ := hd.symm.trans (by decide +kernel)
  rw [Except.ok.inj hone] at hc hgoes
  rw [Except.ok.inj htwo] at hd hends
  obtain ⟨-, next, hnext, hadvances⟩ := hgoes (by decide)
  exact ⟨hleft, hright, hrun, ⟨_, next, hc, by decide, hnext, hadvances⟩, _, hd, by decide,
    (hends (by decide)).symm⟩

end CsvQuery

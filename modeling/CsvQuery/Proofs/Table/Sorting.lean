/-
  CsvQuery.Proofs.Table.Sorting — stable sorting of rows by a cell.

  A stable sort of rows by a column is ascending there and keeps, for every value, the rows with that
  value in their old order.  These two facts leave no choice: there is one stable sort of a list of
  rows, and `sortedBy` is it.

  Main results:
    • `filter_mergeSort` — merge sort does not disturb elements that may stand in either order
    • `stablySorted_sortedBy` — `sortedBy` sorts stably
    • `StablySorted.unique` — no other list of rows is a stable sort
-/
import CsvQuery.Proofs.Cell.Order
import CsvQuery.Table.Join.SortMerge

namespace CsvQuery

/-! ## §1. Merge sort and its undisturbed elements -/

/-- Elements that may all stand before each other keep their order under merge sort. -/
theorem filter_mergeSort {α : Type} {le : α → α → Bool}
    (trans : ∀ a b c, le a b = true → le b c = true → le a c = true)
    (total : ∀ a b, (le a b || le b a) = true) {p : α → Bool}
    (hp : ∀ a b, p a = true → p b = true → le a b = true) (rows : List α) :
    (rows.mergeSort le).filter p = rows.filter p := by
  have hsorted : (rows.filter p).Pairwise fun a b => le a b = true := by
    apply List.pairwise_of_forall_mem_list
    intro a ha b hb
    exact hp a b (List.mem_filter.mp ha).2 (List.mem_filter.mp hb).2
  have hsub : (rows.filter p).Sublist (rows.mergeSort le) :=
    List.sublist_mergeSort trans total hsorted List.filter_sublist
  have hsub : (rows.filter p).Sublist ((rows.mergeSort le).filter p) := by
    have := hsub.filter p
    rwa [List.filter_filter, List.filter_congr (q := p) (by simp)] at this
  -- sorting loses no element, so the part that keeps its order is all of them
  have hlength : (rows.filter p).length = ((rows.mergeSort le).filter p).length :=
    ((List.mergeSort_perm rows le).filter p).length_eq.symm
  exact (hsub.eq_of_length hlength).symm

/-! ## §2. Ascending rows -/

/-- The rows stand in ascending order of their cells at a position. -/
def Ascending (position : Nat) (rows : List Row) : Prop :=
  rows.Pairwise fun a b => (a.cell position).le (b.cell position) = true

section Ascending

variable {position : Nat} {rows rows' : List Row}

/-- Rows that are the same for every value are rows of both lists. -/
theorem mem_of_filter_eq (h : ∀ cell : Cell, rows.filter (fun row => cell == row.cell position)
    = rows'.filter fun row => cell == row.cell position) {row : Row} (hrow : row ∈ rows) :
    row ∈ rows' := by
  have hmem : row ∈ rows.filter fun other => row.cell position == other.cell position :=
    List.mem_filter.mpr ⟨hrow, Cell.beq_refl _⟩
  rw [h] at hmem
  exact (List.mem_filter.mp hmem).1

theorem Ascending.le_of_mem {row other : Row} (h : Ascending position (row :: rows))
    (hother : other ∈ row :: rows) : (row.cell position).le (other.cell position) = true := by
  rcases List.mem_cons.mp hother with heq | hmem
  · rw [heq]
    exact Cell.le_of_beq (Cell.beq_refl _)
  · exact List.rel_of_pairwise_cons h hmem

theorem Ascending.tail {row : Row} (h : Ascending position (row :: rows)) :
    Ascending position rows :=
  List.Pairwise.of_cons h

/-- Ascending rows are known from the rows with each value. -/
theorem Ascending.eq_of_filter_eq (h : Ascending position rows) (h' : Ascending position rows')
    (hfilter : ∀ cell : Cell, rows.filter (fun row => cell == row.cell position)
      = rows'.filter fun row => cell == row.cell position) :
    rows = rows' := by
  induction rows generalizing rows' with
  | nil =>
    cases rows' with
    | nil => rfl
    | cons row' rows' =>
      have := mem_of_filter_eq (fun cell => (hfilter cell).symm) List.mem_cons_self
      cases this
  | cons row rows ih =>
    cases rows' with
    | nil =>
      have := mem_of_filter_eq hfilter List.mem_cons_self
      cases this
    | cons row' rows' =>
      -- each first row is a row of the other list, so neither cell is below the other
      have hle := h.le_of_mem (mem_of_filter_eq (fun cell => (hfilter cell).symm) List.mem_cons_self)
      have hge := h'.le_of_mem (mem_of_filter_eq hfilter List.mem_cons_self)
      have hcell : (row.cell position == row'.cell position) = true := Cell.beq_of_le_of_le hle hge
      have hfirst := hfilter (row.cell position)
      rw [List.filter_cons, List.filter_cons, if_pos (Cell.beq_refl _), if_pos hcell] at hfirst
      injection hfirst with hrow _
      subst hrow
      rw [ih h.tail h'.tail]
      intro cell
      -- the first row is picked on both sides or on neither
      have := hfilter cell
      rw [List.filter_cons, List.filter_cons] at this
      split at this
      next => injection this
      next => exact this

end Ascending

/-! ## §3. Stable sorts -/

/-- The second list has the rows of the first in ascending order of their cells at a position, rows
with equal cells in their old order. -/
structure StablySorted (position : Nat) (rows sorted : List Row) : Prop where
  perm : sorted.Perm rows
  ascending : Ascending position sorted
  stable : ∀ cell : Cell, sorted.filter (fun row => cell == row.cell position)
    = rows.filter fun row => cell == row.cell position

/-- The order of rows with equal cells needs a look at the cells of the rows only. -/
theorem stablySorted_iff {position : Nat} {rows sorted : List Row} :
    StablySorted position rows sorted ↔
      sorted.Perm rows ∧ Ascending position sorted ∧
        ∀ row ∈ rows, sorted.filter (fun other => row.cell position == other.cell position)
          = rows.filter fun other => row.cell position == other.cell position := by
  constructor
  · intro h
    exact ⟨h.perm, h.ascending, fun row _ => h.stable (row.cell position)⟩
  · intro h
    obtain ⟨hperm, hascending, hrows⟩ := h
    refine ⟨hperm, hascending, ?_⟩
    intro cell
    by_cases hcell : ∃ row ∈ rows, (cell == row.cell position) = true
    · obtain ⟨row, hrow, heq⟩ := hcell
      have hsame : (fun other : Row => cell == other.cell position)
          = fun other => row.cell position == other.cell position := by
        funext other
        exact BEq.congr_left heq
      rw [hsame]
      exact hrows row hrow
    · -- a cell that no row has picks no row on either side
      have hnone : ∀ row ∈ rows, ¬(cell == row.cell position) = true :=
        fun row hrow heq => hcell ⟨row, hrow, heq⟩
      rw [List.filter_eq_nil_iff.mpr hnone,
        List.filter_eq_nil_iff.mpr fun row hrow => hnone row (hperm.mem_iff.mp hrow)]

instance (position : Nat) (rows : List Row) : Decidable (Ascending position rows) :=
  inferInstanceAs (Decidable (rows.Pairwise _))

instance (position : Nat) (rows sorted : List Row) :
    Decidable (StablySorted position rows sorted) :=
  decidable_of_iff _ stablySorted_iff.symm

/-- Merge sort by the cells at a position is a stable sort. -/
theorem stablySorted_sortedBy (position : Nat) (rows : List Row) :
    StablySorted position rows (sortedBy position rows) := by
  have trans : ∀ a b c : Row, (a.cell position).le (b.cell position) = true →
      (b.cell position).le (c.cell position) = true →
      (a.cell position).le (c.cell position) = true := fun _ _ _ => Cell.le_trans
  have total : ∀ a b : Row, ((a.cell position).le (b.cell position)
      || (b.cell position).le (a.cell position)) = true := fun _ _ => Cell.le_total _ _
  refine ⟨List.mergeSort_perm rows _, List.pairwise_mergeSort trans total rows, ?_⟩
  intro cell
  refine filter_mergeSort trans total ?_ rows
  intro a b ha hb
  exact Cell.le_of_beq (BEq.trans (BEq.symm ha) hb)

/-- There is only one stable sort of a list of rows. -/
theorem StablySorted.unique {position : Nat} {rows sorted sorted' : List Row}
    (h : StablySorted position rows sorted) (h' : StablySorted position rows sorted') :
    sorted = sorted' :=
  h.ascending.eq_of_filter_eq h'.ascending fun cell => (h.stable cell).trans (h'.stable cell).symm

end CsvQuery

/-
  CsvQuery.Proofs.Table.Agreement — tables that hold one relation.

  Two tables agree when they have one header and their rows can be paired off, each with a row of the
  same width that has equal cells.  Left open is where the rows stand, and in which of its forms a
  number is.  What treats all rows alike cannot tell such tables apart: selecting, sorting, counting,
  loading, and joining by either strategy, whose results differ in the order of their rows only.

  Main results:
    • `Agree.select`, `Agree.orderBy`, `Agree.countBy`, `Agree.load` — agreement is kept
    • `Agree.join` — and kept by joins with one table, even by different strategies
-/
import Mathlib.Data.Multiset.Bind
import CsvQuery.Proofs.Join.Merge
import CsvQuery.Proofs.Table.Counting
import CsvQuery.Proofs.Table.Row
import CsvQuery.Table.Order
import CsvQuery.Table.Select

namespace CsvQuery

/-! ## §1. Equal rows -/

/-- Two rows are of one width and have equal cells at every position. -/
structure Row.Equal (a b : Row) : Prop where
  length : a.length = b.length
  cells : ∀ i, Cell.Equal (a.cell i) (b.cell i)

namespace Row

theorem Equal.refl (a : Row) : a.Equal a := ⟨rfl, fun _ => BEq.rfl⟩

/-- Rows that are built alike out of equal cells are equal. -/
theorem equal_map {α : Type} {f g : α → Cell} (h : ∀ x, Cell.Equal (f x) (g x)) (xs : List α) :
    Row.Equal (xs.map f) (xs.map g) := by
  refine ⟨by rw [List.length_map, List.length_map], ?_⟩
  intro i
  simp only [Row.cell, List.getD_eq_getElem?_getD, List.getElem?_map]
  cases xs[i]? with
  | none => exact BEq.rfl
  | some x => exact h x

theorem Equal.append_right {a b : Row} (h : a.Equal b) (c : Row) :
    Row.Equal (a ++ c) (b ++ c) := by
  refine ⟨by rw [List.length_append, List.length_append, h.length], ?_⟩
  intro i
  rw [cell_append, cell_append, h.length]
  split
  · exact h.cells i
  · exact BEq.rfl

end Row

/-! ## §2. Agreement -/

namespace Table

/-- Two tables have one header, and their rows can be paired off so that paired rows are equal. -/
structure Agree (a b : Table) : Prop where
  columns : a.columns = b.columns
  rows : Multiset.Rel Row.Equal a.rows b.rows

namespace Agree

variable {a b : Table}

theorem refl (a : Table) : a.Agree a :=
  ⟨rfl, Multiset.rel_refl_of_refl_on fun row _ => Row.Equal.refl row⟩

theorem position (h : a.Agree b) (column : String) : a.position column = b.position column := by
  unfold Table.position
  rw [h.columns]

/-- Agreeing tables have one index. -/
theorem index (h : a.Agree b) : a.index = b.index := by
  unfold Table.index Table.position
  rw [h.columns]

/-- What is loaded does not depend on the table before it. -/
theorem load (h : a.Agree b) (reply : String) : (a.load reply).Agree (b.load reply) := by
  unfold Table.load
  split
  · exact h
  · exact refl _

/-- Selected columns come from the same positions in both tables. -/
theorem select (h : a.Agree b) (columns : List String) :
    (a.select columns).Agree (b.select columns) := by
  -- the columns lead to the same positions, and there the cells of paired rows are equal
  have hpositions : columns.map a.position = columns.map b.position :=
    List.map_congr_left fun column _ => h.position column
  refine ⟨rfl, ?_⟩
  unfold Table.select
  dsimp only
  rw [hpositions, ← Multiset.map_coe, ← Multiset.map_coe, Multiset.rel_map]
  refine h.rows.mono ?_
  intro row _ row' _ hrow
  apply Row.equal_map
  intro position
  cases position with
  | none => exact BEq.rfl
  | some position => exact hrow.cells position

/-- Sorted tables hold the same rows as before. -/
theorem orderBy (h : a.Agree b) (column : String) :
    (a.orderBy column).Agree (b.orderBy column) := by
  unfold Table.orderBy
  rw [h.position column]
  cases b.position column with
  | none => exact h
  | some position =>
    -- sorting moves rows and keeps each of them
    refine ⟨h.columns, ?_⟩
    dsimp only
    rw [Multiset.coe_eq_coe.mpr (List.mergeSort_perm a.rows _),
      Multiset.coe_eq_coe.mpr (List.mergeSort_perm b.rows _)]
    exact h.rows

/-- The counts of agreeing tables have the same entries, seen in any order and in any form. -/
theorem counts (h : a.Agree b) (column : String) :
    Multiset.Rel SameEntry (a.counts column) (b.counts column) := by
  cases hposition : b.position column with
  | none =>
    unfold Table.counts
    rw [h.position column, hposition]
    exact .zero
  | some position =>
    have hcells : Multiset.Rel Cell.Equal (a.rows.map fun row => row.cell position)
        (b.rows.map fun row => row.cell position) := by
      rw [← Multiset.map_coe, ← Multiset.map_coe, Multiset.rel_map]
      exact h.rows.mono fun row _ row' _ hrow => hrow.cells position
    have hposition' : a.position column = some position := by rw [h.position column, hposition]
    exact (isTally_counts hposition').rel (isTally_counts hposition) hcells

/-- Agreeing tables have agreeing tables of counts. -/
theorem countBy (h : a.Agree b) (column : String) :
    (a.countBy column).Agree (b.countBy column) := by
  refine ⟨rfl, ?_⟩
  unfold Table.countBy
  dsimp only
  rw [← Multiset.map_coe, ← Multiset.map_coe, Multiset.rel_map]
  refine (h.counts column).mono ?_
  intro entry _ entry' _ hentry
  obtain ⟨hvalue, hnumber⟩ := hentry
  rw [hnumber]
  refine ⟨rfl, ?_⟩
  intro i
  cases i with
  | zero => exact hvalue
  | succ i => exact BEq.rfl

end Agree

/-! ## §3. Joins -/

section Join

variable {left left' right : Table} {column : String} {p q : Nat}

/-- Either strategy joins the left rows in some order with the right rows. -/
theorem join_of_isLastPosition (strategy : JoinStrategy) (hl : IsLastPosition column left.columns p)
    (hr : IsLastPosition column right.columns q) :
    ∃ rows, rows.Perm left.rows ∧
      left.join strategy right column
        = ⟨left.columns ++ right.columns.eraseIdx q,
            (equalPairs p q rows right.rows).map (joinRow q)⟩ := by
  cases strategy with
  | hash => exact ⟨left.rows, .refl _, hashJoin_of_isLastPosition hl hr⟩
  | sortMerge =>
    exact ⟨sortedBy p left.rows, (stablySorted_sortedBy p left.rows).perm,
      sortMergeJoin_of_isLastPosition hl hr⟩

/-- A join by a column that one side lacks is empty. -/
theorem join_of_position_eq_none (strategy : JoinStrategy)
    (h : left.position column = none ∨ right.position column = none) :
    left.join strategy right column = empty := by
  cases strategy with
  | hash => exact joinWith_of_position_eq_none h
  | sortMerge => exact joinWith_of_position_eq_none h

/-- Equal left rows meet the same right rows, so the joined rows are equal in pairs. -/
theorem rel_joinRow {rows rows' : List Row} (h : Multiset.Rel Row.Equal rows rows')
    (others : List Row) :
    Multiset.Rel Row.Equal ((equalPairs p q rows others).map (joinRow q))
      ((equalPairs p q rows' others).map (joinRow q)) := by
  rw [← Multiset.map_coe, ← Multiset.map_coe, Multiset.rel_map, equalPairs, equalPairs,
    ← Multiset.coe_bind, ← Multiset.coe_bind]
  apply Multiset.rel_bind (r := Row.Equal) _ h
  intro l l' hl
  -- a right row is met by both or by neither
  have hpartners : (others.filter fun r => l'.cell p == r.cell q)
      = others.filter fun r => l.cell p == r.cell q :=
    List.filter_congr fun r _ => (BEq.congr_left (hl.cells p)).symm
  dsimp only
  rw [hpartners, ← Multiset.map_coe, ← Multiset.map_coe, Multiset.rel_map]
  exact Multiset.rel_refl_of_refl_on fun r _ => hl.append_right _

/-- Agreeing tables have agreeing joins with one table, by whichever strategies. -/
theorem Agree.join (h : left.Agree left') (strategy strategy' : JoinStrategy) (right : Table)
    (column : String) :
    (left.join strategy right column).Agree (left'.join strategy' right column) := by
  rcases positions_cases left right column with hnone | ⟨p, q, hl, hr⟩
  · rw [join_of_position_eq_none strategy hnone]
    rw [h.position column] at hnone
    rw [join_of_position_eq_none strategy' hnone]
    exact Agree.refl empty
  · -- in whatever order the strategies take the left rows, they take all of them
    obtain ⟨rows, hperm, hjoin⟩ := join_of_isLastPosition strategy hl hr
    rw [h.columns] at hl
    obtain ⟨rows', hperm', hjoin'⟩ := join_of_isLastPosition strategy' hl hr
    rw [hjoin, hjoin', h.columns]
    refine ⟨rfl, rel_joinRow ?_ right.rows⟩
    rw [Multiset.coe_eq_coe.mpr hperm, Multiset.coe_eq_coe.mpr hperm']
    exact h.rows

end Join

end Table

end CsvQuery

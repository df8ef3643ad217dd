/-
  CsvQuery.Proofs.Table.Row — rows as cells at all positions.

  A row answers with a cell at every position, absent past its end, so rows of one width are the same
  when they answer alike.  Each way of building rows is described by the cells it answers with.
-/
import CsvQuery.Cell.Basic

namespace CsvQuery.Row

theorem cell_of_lt {a : Row} {i : Nat} (h : i < a.length) : a.cell i = a[i] := by
  rw [Row.cell, List.getD_eq_getElem?_getD, List.getElem?_eq_getElem h]
  rfl

/-- Past its end a row answers with absent cells. -/
theorem cell_of_length_le {a : Row} {i : Nat} (h : a.length ≤ i) : a.cell i = .absent := by
  rw [Row.cell, List.getD_eq_getElem?_getD, List.getElem?_eq_none h]
  rfl

/-- Rows of one width with the same cell everywhere are the same. -/
theorem ext_cell {a b : Row} (hlength : a.length = b.length) (h : ∀ i, a.cell i = b.cell i) :
    a = b := by
  apply List.ext_getElem hlength
  intro i ha hb
  have := h i
  rwa [cell_of_lt ha, cell_of_lt hb] at this

/-- The second row answers from where the first one ends. -/
theorem cell_append (a b : Row) (i : Nat) :
    Row.cell (a ++ b) i = if i < a.length then a.cell i else b.cell (i - a.length) := by
  simp only [Row.cell, List.getD_eq_getElem?_getD, List.getElem?_append]
  split <;> rfl

/-- Behind a dropped cell all others move up by one. -/
theorem cell_eraseIdx (a : Row) (dropped i : Nat) :
    Row.cell (a.eraseIdx dropped) i = a.cell (if i < dropped then i else i + 1) := by
  simp only [Row.cell, List.getD_eq_getElem?_getD, List.getElem?_eraseIdx]
  split <;> rfl

theorem cell_drop (a : Row) (n i : Nat) : Row.cell (a.drop n) i = a.cell (n + i) := by
  simp only [Row.cell, List.getD_eq_getElem?_getD, List.getElem?_drop]

/-- All cells of a row are absent when it answers with absent cells only. -/
theorem forall_mem_eq_absent_iff {a : Row} :
    (∀ cell ∈ a, cell = .absent) ↔ ∀ i, a.cell i = .absent := by
  constructor
  · intro h i
    by_cases hi : i < a.length
    · rw [cell_of_lt hi]
      exact h _ (List.getElem_mem hi)
    · exact cell_of_length_le (by omega)
  · intro h cell hcell
    obtain ⟨i, hi, heq⟩ := List.getElem_of_mem hcell
    rw [← heq, ← cell_of_lt hi]
    exact h i

/-! ## Widths -/

/-- The row cut to a width or filled up to it with absent cells. -/
def padded (row : Row) (width : Nat) : Row := (List.range width).map row.cell

theorem length_padded (row : Row) (width : Nat) : (row.padded width).length = width := by
  simp [padded]

/-- A padded row answers as the row does, within its width. -/
theorem cell_padded (row : Row) (width i : Nat) :
    (row.padded width).cell i = if i < width then row.cell i else .absent := by
  by_cases hi : i < width
  · have hlt : i < (row.padded width).length := by
      rw [length_padded]
      exact hi
    rw [if_pos hi, cell_of_lt hlt]
    simp [padded]
  · rw [if_neg hi, cell_of_length_le (by rw [length_padded]; omega)]

theorem padded_eq_self {row : Row} {width : Nat} (h : row.length = width) :
    row.padded width = row := by
  apply ext_cell
  · rw [length_padded, h]
  · intro i
    rw [cell_padded]
    split
    next => rfl
    next hi => rw [cell_of_length_le (by omega)]

end CsvQuery.Row

/-
  CsvQuery.Proofs.Join.Alignment — when joined rows stand under the joined header.

  A joined row is the left row followed by the right row without its key, as long as the two happen to
  be.  A row that is too short or too long therefore moves what follows it out of its column.  The
  joined row is in line with the header exactly when its width is right and either the left row has
  the width of the left header or there is nothing to misplace: all cells past it are absent.

  Main results:
    • `append_eq_padded_iff` — when two rows in a row fill two headers
    • `alignedRow_joinRow_iff` — the same for a joined row and its header
    • `joins_aligned_iff` — both joins, over all pairs of rows that meet
-/
import Mathlib.Data.List.Forall2
import CsvQuery.Proofs.Join.Merge
import CsvQuery.Proofs.Table.Row

namespace CsvQuery

/-! ## §1. Two rows under two headers -/

section Padding

variable {l k : Row} {n m : Nat}

/-- After a left row that is too short, each right cell stands where an earlier one belongs, and the
first ones where absent cells belong: they are in place only if all are absent. -/
theorem cell_eq_absent_of_short (h : l ++ k = l.padded n ++ k.padded m) (hshort : l.length < n)
    (i : Nat) : k.cell i = .absent := by
  -- what stands at place `i` is absent or equal to an earlier cell, so the induction runs up
  induction i using Nat.strongRecOn with
  | ind i ih =>
    have hcell := congrArg (fun row => Row.cell row (l.length + i)) h
    simp only [Row.cell_append, Row.length_padded, Row.cell_padded] at hcell
    rw [if_neg (by omega), Nat.add_sub_cancel_left] at hcell
    rw [hcell]
    split
    · exact Row.cell_of_length_le (by omega)
    · split
      · exact ih _ (by omega)
      · rfl

/-- After a left row that is too long, each cell stands where a later one belongs, and the last ones
where absent cells belong: they are in place only if all are absent. -/
theorem cell_eq_absent_of_long (h : l ++ k = l.padded n ++ k.padded m) (hlong : n < l.length)
    (i : Nat) : Row.cell (l ++ k) (n + i) = .absent := by
  -- what stands there is absent or equal to a later cell, so the induction runs down from the end
  induction hgap : m - i using Nat.strongRecOn generalizing i with
  | ind gap ih =>
    have hcell := congrArg (fun row => Row.cell row (n + i)) h
    rw [hcell]
    simp only [Row.cell_append, Row.length_padded, Row.cell_padded]
    rw [if_neg (by omega), Nat.add_sub_cancel_left]
    split
    next hi =>
      have hlater := ih (m - (l.length - n + i)) (by omega) (l.length - n + i) rfl
      rw [Row.cell_append, if_neg (by omega)] at hlater
      rw [← hlater]
      congr 1
      omega
    next => rfl

/-- Two rows in a row fill two headers when their widths add up and either the first row fills its own
or all cells past it are absent. -/
theorem append_eq_padded_iff :
    l ++ k = l.padded n ++ k.padded m ↔
      l.length + k.length = n + m ∧ (l.length = n ∨ ∀ cell ∈ l.drop n ++ k, cell = .absent) := by
  constructor
  · intro h
    have hlength := congrArg List.length h
    rw [List.length_append, List.length_append, Row.length_padded, Row.length_padded] at hlength
    refine ⟨hlength, ?_⟩
    -- the left row is in place by its width, and else what it pushes away has to be absent
    rcases Nat.lt_trichotomy l.length n with hshort | heq | hlong
    · right
      rw [List.drop_eq_nil_of_le (by omega), List.nil_append, Row.forall_mem_eq_absent_iff]
      exact cell_eq_absent_of_short h hshort
    · exact .inl heq
    · right
      rw [← List.drop_append_of_le_length (by omega), Row.forall_mem_eq_absent_iff]
      intro i
      rw [Row.cell_drop]
      exact cell_eq_absent_of_long h hlong i
  · intro h
    obtain ⟨hlength, heq | habsent⟩ := h
    · rw [Row.padded_eq_self heq, Row.padded_eq_self (by omega)]
    · have hk : ∀ i, k.cell i = .absent := Row.forall_mem_eq_absent_iff.mp fun cell hcell =>
        habsent cell (List.mem_append_right _ hcell)
      have hl : ∀ i, Row.cell (l.drop n) i = .absent :=
        Row.forall_mem_eq_absent_iff.mp fun cell hcell =>
          habsent cell (List.mem_append_left _ hcell)
      apply Row.ext_cell
      · simp only [List.length_append, Row.length_padded, hlength]
      · intro i
        simp only [Row.cell_append, Row.length_padded, Row.cell_padded, hk, ite_self]
        by_cases hi : i < n
        · rw [if_pos hi, if_pos hi]
          split
          next => rfl
          next hle => rw [Row.cell_of_length_le (by omega)]
        · have hpast := hl (i - n)
          rw [Row.cell_drop, Nat.add_sub_cancel' (by omega)] at hpast
          rw [if_neg hi, hpast, ite_self]

end Padding

/-! ## §2. Joined rows under their header -/

/-- Where a position of the right header comes to stand once the position of the key is left out. -/
def keptPosition (dropped position : Nat) : Nat :=
  if position < dropped then position else position - 1

theorem restore_keptPosition {dropped p : Nat} (h : p ≠ dropped) :
    (if keptPosition dropped p < dropped then keptPosition dropped p
      else keptPosition dropped p + 1) = p := by
  unfold keptPosition
  by_cases hp : p < dropped
  · rw [if_pos hp, if_pos hp]
  · rw [if_neg hp, if_neg (by omega)]
    omega

/-- A position that is not dropped comes back once the dropped one is put in again. -/
theorem keptPosition_restore (dropped i : Nat) :
    keptPosition dropped (if i < dropped then i else i + 1) = i := by
  unfold keptPosition
  by_cases hi : i < dropped
  · rw [if_pos hi, if_pos hi]
  · rw [if_neg hi, if_neg (by omega)]
    omega

theorem keptPosition_lt {dropped p width : Nat} (hp : p < width) (hdropped : dropped < width)
    (h : p ≠ dropped) : keptPosition dropped p < width - 1 := by
  unfold keptPosition
  split <;> omega

/-- A joined row has one cell for each joined column, and under each column the cell that its own row
has under that column. -/
structure AlignedRow (left right joined : Table) (dropped : Nat) (pair : Row × Row) (row : Row) :
    Prop where
  width : row.length = joined.columns.length
  ofLeft : ∀ p, p < left.columns.length →
    joined.columns[p]? = left.columns[p]? ∧ row.cell p = pair.1.cell p
  ofRight : ∀ p, p < right.columns.length → p ≠ dropped →
    joined.columns[left.columns.length + keptPosition dropped p]? = right.columns[p]? ∧
    row.cell (left.columns.length + keptPosition dropped p) = pair.2.cell p

/-- The widths of two rows that meet add up, and either the left row has the width of its header or
all cells past it, and those of the right row, are absent. -/
structure FillsHeader (leftWidth rightWidth dropped : Nat) (l r : Row) : Prop where
  width : l.length + (r.eraseIdx dropped).length = leftWidth + (rightWidth - 1)
  inPlace : l.length = leftWidth ∨ ∀ cell ∈ l.drop leftWidth ++ r.eraseIdx dropped, cell = .absent

section Header

variable {left right joined : Table} {q : Nat} {l r row : Row}

/-- An aligned row is the left row and the rest of the right row, each at the width of its header. -/
theorem alignedRow_iff (hq : q < right.columns.length)
    (hcolumns : joined.columns = left.columns ++ right.columns.eraseIdx q) :
    AlignedRow left right joined q (l, r) row ↔
      row = l.padded left.columns.length
        ++ Row.padded (r.eraseIdx q) (right.columns.length - 1) := by
  have hwidth : joined.columns.length = left.columns.length + (right.columns.length - 1) := by
    rw [hcolumns, List.length_append, List.length_eraseIdx_of_lt hq]
  constructor
  · intro h
    apply Row.ext_cell
    · rw [h.width, hwidth, List.length_append, Row.length_padded, Row.length_padded]
    · intro i
      simp only [Row.cell_append, Row.length_padded, Row.cell_padded, Row.cell_eraseIdx]
      by_cases hi : i < left.columns.length
      · rw [if_pos hi, if_pos hi]
        exact (h.ofLeft i hi).2
      · rw [if_neg hi]
        by_cases hlast : i - left.columns.length < right.columns.length - 1
        · -- past the left header, the position that is kept at `i` is found by counting the key back in
          have hkept := h.ofRight
            (if i - left.columns.length < q then i - left.columns.length
              else i - left.columns.length + 1) (by split <;> omega) (by split <;> omega)
          rw [keptPosition_restore, Nat.add_sub_cancel' (by omega)] at hkept
          rw [if_pos hlast]
          exact hkept.2
        · rw [if_neg hlast]
          exact Row.cell_of_length_le (by rw [h.width, hwidth]; omega)
  · intro h
    refine ⟨?_, ?_, ?_⟩
    · rw [h, hwidth, List.length_append, Row.length_padded, Row.length_padded]
    · intro p hp
      rw [hcolumns, List.getElem?_append_left hp, h, Row.cell_append, Row.length_padded,
        if_pos hp, Row.cell_padded, if_pos hp]
      exact ⟨rfl, rfl⟩
    · intro p hp hne
      have hlt := keptPosition_lt hp hq hne
      rw [hcolumns, List.getElem?_append_right (by omega), h, Row.cell_append, Row.length_padded,
        if_neg (by omega), Nat.add_sub_cancel_left, Row.cell_padded, if_pos hlt,
        Row.cell_eraseIdx, restore_keptPosition hne, List.getElem?_eraseIdx]
      refine ⟨?_, rfl⟩
      conv => rhs; rw [← restore_keptPosition hne]
      split <;> rfl

/-- A pair fills the header when its widths add up and no cell with a value is misplaced. -/
theorem fillsHeader_iff {leftWidth rightWidth : Nat} :
    FillsHeader leftWidth rightWidth q l r ↔
      l.length + (r.eraseIdx q).length = leftWidth + (rightWidth - 1) ∧
        (l.length = leftWidth ∨
          ∀ cell ∈ l.drop leftWidth ++ r.eraseIdx q, cell = .absent) := by
  constructor
  · intro h
    exact ⟨h.width, h.inPlace⟩
  · intro h
    exact ⟨h.1, h.2⟩

/-- A joined row is aligned exactly when its two rows fill the header. -/
theorem alignedRow_joinRow_iff (hq : q < right.columns.length)
    (hcolumns : joined.columns = left.columns ++ right.columns.eraseIdx q) :
    AlignedRow left right joined q (l, r) (joinRow q (l, r)) ↔
      FillsHeader left.columns.length right.columns.length q l r := by
  rw [alignedRow_iff hq hcolumns, joinRow, append_eq_padded_iff, fillsHeader_iff]

end Header

instance (leftWidth rightWidth dropped : Nat) (l r : Row) :
    Decidable (FillsHeader leftWidth rightWidth dropped l r) :=
  decidable_of_iff _ fillsHeader_iff.symm

/-! ## §3. The two joins -/

/-- The rows of a join are aligned when, one after the other, they are aligned with the pairs that meet. -/
def AlignedRows (left right joined : Table) (dropped : Nat) (pairs : List (Row × Row)) : Prop :=
  List.Forall₂ (AlignedRow left right joined dropped) pairs joined.rows

/-- Rows that meet fill the joined header. -/
def MeetingRowsFill (left right : Table) (p q : Nat) : Prop :=
  ∀ l ∈ left.rows, ∀ r ∈ right.rows, (l.cell p == r.cell q) = true →
    FillsHeader left.columns.length right.columns.length q l r

instance (left right : Table) (p q : Nat) : Decidable (MeetingRowsFill left right p q) :=
  inferInstanceAs (Decidable (∀ l ∈ left.rows, ∀ r ∈ right.rows, _ → _))

namespace Table

/-- Joined rows are all in line exactly when every two rows that meet fill the header. -/
theorem alignedRows_iff {left right : Table} {p q : Nat} {sorted : List Row}
    (hq : q < right.columns.length) (hperm : sorted.Perm left.rows) :
    AlignedRows left right
        ⟨left.columns ++ right.columns.eraseIdx q,
          (equalPairs p q sorted right.rows).map (joinRow q)⟩ q
        (equalPairs p q sorted right.rows) ↔
      MeetingRowsFill left right p q := by
  unfold AlignedRows
  rw [List.forall₂_map_right_iff, List.forall₂_same]
  constructor
  · intro h l hl r hr hmeet
    have hpair : (l, r) ∈ equalPairs p q sorted right.rows :=
      mem_equalPairs.mpr ⟨hperm.mem_iff.mpr hl, hr, hmeet⟩
    exact (alignedRow_joinRow_iff hq rfl).mp (h (l, r) hpair)
  · intro h pair hpair
    obtain ⟨hl, hr, hmeet⟩ := mem_equalPairs.mp hpair
    exact (alignedRow_joinRow_iff hq rfl).mpr
      (h pair.1 (hperm.mem_iff.mp hl) pair.2 hr hmeet)

/-- The rows of either join are aligned exactly when all rows that meet fill the joined header. -/
theorem joins_aligned_iff (left right : Table) (column : String) (p q : Nat)
    (hl : IsLastPosition column left.columns p) (hr : IsLastPosition column right.columns q) :
    (AlignedRows left right (left.hashJoin right column) q
        (equalPairs p q left.rows right.rows) ↔ MeetingRowsFill left right p q) ∧
    (AlignedRows left right (left.sortMergeJoin right column) q
        (equalPairs p q (sortedBy p left.rows) right.rows) ↔ MeetingRowsFill left right p q) := by
  rw [hashJoin_of_isLastPosition hl hr, sortMergeJoin_of_isLastPosition hl hr]
  exact ⟨alignedRows_iff hr.lt_length (List.Perm.refl _),
    alignedRows_iff hr.lt_length (stablySorted_sortedBy p left.rows).perm⟩

/-- Behind a row without its second cell the value of the third column stands under the second. -/
theorem joins_misaligned_short_row :
    IsLastPosition "a" (ofCsv "a,b\n1\n").columns 0 ∧
    IsLastPosition "a" (ofCsv "a,c\n1,x\n").columns 0 ∧
    hashJoin (ofCsv "a,b\n1\n") (ofCsv "a,c\n1,x\n") "a"
      = ⟨["a", "b", "c"], [[.int 1, .text "x"]]⟩ ∧
    ¬AlignedRows (ofCsv "a,b\n1\n") (ofCsv "a,c\n1,x\n")
      (hashJoin (ofCsv "a,b\n1\n") (ofCsv "a,c\n1,x\n") "a") 0
      (equalPairs 0 0 (ofCsv "a,b\n1\n").rows (ofCsv "a,c\n1,x\n").rows) ∧
    ¬AlignedRows (ofCsv "a,b\n1\n") (ofCsv "a,c\n1,x\n")
      (sortMergeJoin (ofCsv "a,b\n1\n") (ofCsv "a,c\n1,x\n") "a") 0
      (equalPairs 0 0 (sortedBy 0 (ofCsv "a,b\n1\n").rows) (ofCsv "a,c\n1,x\n").rows) := by
  have hl : IsLastPosition "a" (ofCsv "a,b\n1\n").columns 0 :=
    isLastPosition_of_lastPosition (by decide +kernel)
  have hr : IsLastPosition "a" (ofCsv "a,c\n1,x\n").columns 0 :=
    isLastPosition_of_lastPosition (by decide +kernel)
  have haligned := joins_aligned_iff (ofCsv "a,b\n1\n") (ofCsv "a,c\n1,x\n") "a" 0 0 hl hr
  have hfill : ¬MeetingRowsFill (ofCsv "a,b\n1\n") (ofCsv "a,c\n1,x\n") 0 0 := by decide +kernel
  refine ⟨hl, hr, ?_, fun h => hfill (haligned.1.mp h), fun h => hfill (haligned.2.mp h)⟩
  rw [hashJoin_of_isLastPosition hl hr]
  decide +kernel

end Table

end CsvQuery

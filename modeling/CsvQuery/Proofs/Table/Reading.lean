/-
  CsvQuery.Proofs.Table.Reading — tables made from texts that were read.

  Every table that commands can make holds cells that were read from a field or counted, and under a
  header no row of it is without cells.  This is all that it takes for the text of the table to be the
  only one of its kind: what is read from it has the header and the widths of the table and, though a
  number may have changed its form, is written as the same text again.

  Main results:
    • `isRead_ofCsv`, `IsRead.select`, …, `IsRead.join` — where such tables come from
    • `ofCsv_toCsv` — what is read from the text of a table
    • `IsRead.toCsv_ofCsv_toCsv` — the text of what is read is the text that was read
-/
import CsvQuery.Proofs.Cell.Display
import CsvQuery.Proofs.Csv.Cut
import CsvQuery.Proofs.Table.Agreement

namespace CsvQuery

/-! ## §1. Rows that were read -/

namespace Csv

/-- A line has at least one field. -/
theorem lineFields_ne_nil (line : List Char) : lineFields line ≠ [] := by
  rw [lineFields]
  split <;> exact List.cons_ne_nil _ _

theorem lineRow_ne_nil (line : List Char) : lineRow line ≠ [] := by
  unfold lineRow
  split
  · exact List.cons_ne_nil _ _
  · exact fun hnil => lineFields_ne_nil line (List.map_eq_nil_iff.mp hnil)

/-- The cells on a line were read from its fields, and the one on a blank line is absent. -/
theorem isRead_of_mem_lineRow {line : List Char} {cell : Cell} (h : cell ∈ lineRow line) :
    cell.IsRead := by
  unfold lineRow at h
  split at h
  · rw [List.mem_singleton.mp h]
    trivial
  · obtain ⟨field, -, hcell⟩ := List.mem_map.mp h
    rw [← hcell]
    exact Cell.isRead_ofField _

/-- Every row that is read stands as a line of the text. -/
theorem exists_lineRow_of_mem_decode {text : String} {row : Row} (h : row ∈ (decode text).2) :
    ∃ line, lineRow line = row := by
  unfold decode at h
  split at h
  next => cases h
  next header rest hlines =>
    obtain ⟨line, hline, hrow⟩ := List.mem_map.mp h
    have hsub : (header :: rest).Sublist (lines (dropMark text.toList)) :=
      hlines ▸ List.dropWhile_sublist _
    have hmem := hsub.subset (List.mem_cons_of_mem _ hline)
    rw [lines_eq_map_cutLines] at hmem
    obtain ⟨raw, -, hraw⟩ := List.mem_map.mp hmem
    exact ⟨raw, by rw [← row_ofText, hraw, hrow]⟩

end Csv

/-! ## §2. Tables of cells that were read -/

/-- A row of cells that were read answers with such cells, past its end too. -/
theorem Row.isRead_cell {row : Row} (h : ∀ cell ∈ row, cell.IsRead) (i : Nat) :
    (row.cell i).IsRead := by
  by_cases hi : i < row.length
  · rw [Row.cell_of_lt hi]
    exact h _ (List.getElem_mem hi)
  · rw [Row.cell_of_length_le (by omega)]
    trivial

namespace Table

/-- The cells of a table were read or counted, and under a header every row has a cell. -/
structure IsRead (table : Table) : Prop where
  cells : ∀ row ∈ table.rows, ∀ cell ∈ row, cell.IsRead
  filled : table.columns ≠ [] → ∀ row ∈ table.rows, row ≠ []

theorem isRead_empty : empty.IsRead := ⟨nofun, nofun⟩

/-- All cells of a table that is read from a text were read, and each row is that of a line. -/
theorem isRead_ofCsv (text : String) : (ofCsv text).IsRead := by
  refine ⟨?_, ?_⟩
  · intro row hrow cell hcell
    obtain ⟨line, hline⟩ := Csv.exists_lineRow_of_mem_decode hrow
    rw [← hline] at hcell
    exact Csv.isRead_of_mem_lineRow hcell
  · intro _ row hrow
    obtain ⟨line, hline⟩ := Csv.exists_lineRow_of_mem_decode hrow
    rw [← hline]
    exact Csv.lineRow_ne_nil line

namespace IsRead

variable {table right : Table}

/-- Loading keeps the table or reads another one. -/
theorem load (h : table.IsRead) (reply : String) : (table.load reply).IsRead := by
  unfold Table.load
  split
  · exact h
  · exact isRead_ofCsv reply

/-- Selecting moves cells and fills up with absent ones. -/
theorem select (h : table.IsRead) (columns : List String) : (table.select columns).IsRead := by
  refine ⟨?_, ?_⟩
  · intro selected hselected cell hcell
    obtain ⟨row, hrow, heq⟩ := List.mem_map.mp hselected
    rw [← heq] at hcell
    obtain ⟨position, -, hposition⟩ := List.mem_map.mp hcell
    rw [← hposition]
    cases position with
    | none => trivial
    | some position => exact Row.isRead_cell (h.cells row hrow) position
  · intro (hcolumns : columns ≠ []) selected hselected
    obtain ⟨row, -, heq⟩ := List.mem_map.mp hselected
    rw [← heq]
    simpa using hcolumns

/-- A table of some of the rows, in any order. -/
theorem of_subset (h : table.IsRead) {rows : List Row} (hrows : rows ⊆ table.rows) :
    IsRead { table with rows } :=
  ⟨fun row hrow => h.cells row (hrows hrow), fun hcolumns row hrow => h.filled hcolumns row (hrows hrow)⟩

theorem take (h : table.IsRead) (limit : Int64) : (table.take limit).IsRead :=
  h.of_subset (List.take_subset _ _)

/-- Sorting moves rows and keeps each of them. -/
theorem orderBy (h : table.IsRead) (column : String) : (table.orderBy column).IsRead := by
  unfold Table.orderBy
  cases table.position column with
  | none => exact h
  | some position => exact h.of_subset (List.mergeSort_perm _ _).subset

/-- What is counted are cells of the table. -/
theorem counts (h : table.IsRead) {column : String} {entry : Cell × Nat}
    (hentry : entry ∈ table.counts column) : entry.1.IsRead := by
  cases hposition : table.position column with
  | none =>
    rw [Table.counts, hposition] at hentry
    cases hentry
  | some position =>
    -- a counted value stands in some row
    have hoccurs := (isTally_counts hposition).occurs entry.1 (List.mem_map_of_mem hentry)
    obtain ⟨row, hrow, hcell⟩ := List.mem_map.mp hoccurs
    rw [← hcell]
    exact Row.isRead_cell (h.cells row hrow) position

/-- Counting adds only cells that hold the counts. -/
theorem countBy (h : table.IsRead) (column : String) : (table.countBy column).IsRead := by
  refine ⟨?_, ?_⟩
  · intro row hrow cell hcell
    obtain ⟨entry, hentry, heq⟩ := List.mem_map.mp hrow
    rw [← heq] at hcell
    rcases List.mem_cons.mp hcell with hvalue | hnumber
    · rw [hvalue]
      exact h.counts hentry
    · rw [List.mem_singleton.mp hnumber]
      trivial
  · intro _ row hrow
    obtain ⟨entry, -, heq⟩ := List.mem_map.mp hrow
    rw [← heq]
    exact List.cons_ne_nil _ _

/-- A joined row has the cells of both sides. -/
theorem join (h : table.IsRead) (hright : right.IsRead) (strategy : JoinStrategy) (column : String) :
    (table.join strategy right column).IsRead := by
  rcases positions_cases table right column with hnone | ⟨p, q, hl, hr⟩
  · rw [join_of_position_eq_none strategy hnone]
    exact isRead_empty
  · obtain ⟨rows, hperm, hjoin⟩ := join_of_isLastPosition strategy hl hr
    -- a joined row has cells of both its rows, and all cells of the left one
    have hpairs : ∀ row ∈ (equalPairs p q rows right.rows).map (joinRow q),
        ∃ l ∈ table.rows, ∃ r ∈ right.rows, l ++ r.eraseIdx q = row := by
      intro row hrow
      obtain ⟨pair, hpair, heq⟩ := List.mem_map.mp hrow
      obtain ⟨hleft, hright, -⟩ := mem_equalPairs.mp hpair
      exact ⟨pair.1, hperm.mem_iff.mp hleft, pair.2, hright, heq⟩
    rw [hjoin]
    refine ⟨?_, ?_⟩
    · intro row hrow cell hcell
      obtain ⟨l, hleft, r, hmem, heq⟩ := hpairs row hrow
      rw [← heq] at hcell
      rcases List.mem_append.mp hcell with hin | hin
      · exact h.cells l hleft cell hin
      · exact hright.cells r hmem cell (List.mem_of_mem_eraseIdx hin)
    · intro _ row hrow
      obtain ⟨l, hleft, r, -, heq⟩ := hpairs row hrow
      have hcolumns : table.columns ≠ [] := List.ne_nil_of_length_pos (Nat.zero_lt_of_lt hl.lt_length)
      rw [← heq]
      exact List.append_ne_nil_of_left_ne_nil (h.filled hcolumns l hleft) _

end IsRead

/-! ## §3. Their texts -/

theorem toCsv_of_columns_eq_nil {table : Table} (h : table.columns = []) : table.toCsv = "" := by
  rw [toCsv, Csv.encode, h]
  rfl

/-- The table that is read from the text of a table with a header. -/
theorem ofCsv_toCsv {table : Table} (hcolumns : table.columns ≠ [])
    (hmark : table.toCsv.toList.head? ≠ some '\uFEFF') :
    ofCsv table.toCsv = ⟨table.columns, table.rows.map Csv.reread⟩ := by
  have hlines : Csv.lines table.toCsv.toList
      = .record (Csv.readBack (table.columns.map String.toList)) ::
          table.rows.map fun row =>
            .record (Csv.readBack (row.map fun cell => cell.display.toList)) := by
    rw [toCsv, Csv.encode, if_neg (by simpa using hcolumns), String.toList_ofList,
      Csv.lines_flatMap_encodeLine, List.map_cons, List.map_map]
    rfl
  unfold ofCsv Csv.decode
  rw [Csv.dropMark_of_head?_ne hmark, hlines,
    List.dropWhile_cons_of_neg (by simp [Csv.Line.isBlank])]
  dsimp only
  rw [Csv.columns_readBack hcolumns, List.map_map]
  congr 1
  exact List.map_congr_left fun row _ => Csv.row_readBack row

namespace IsRead

variable {table : Table}

/-- A row of a table that was read has a cell, so that rereading goes cell by cell. -/
theorem reread_eq_map (h : table.IsRead) (hcolumns : table.columns ≠ []) {row : Row}
    (hrow : row ∈ table.rows) :
    Csv.reread row = row.map fun cell => Cell.ofField cell.display := by
  rw [Csv.reread, if_neg]
  rw [List.isEmpty_iff]
  exact h.filled hcolumns row hrow

/-- What is read from the text of a table has its widths. -/
theorem length_reread (h : table.IsRead) (hcolumns : table.columns ≠ []) :
    (table.rows.map Csv.reread).map List.length = table.rows.map List.length := by
  rw [List.map_map]
  refine List.map_congr_left fun row hrow => ?_
  show (Csv.reread row).length = row.length
  rw [h.reread_eq_map hcolumns hrow, List.length_map]

/-- What is read from the text of a table is written as that text again. -/
theorem toCsv_ofCsv_toCsv (h : table.IsRead)
    (hmark : table.toCsv.toList.head? ≠ some '\uFEFF') :
    (ofCsv table.toCsv).toCsv = table.toCsv := by
  by_cases hcolumns : table.columns = []
  · rw [toCsv_of_columns_eq_nil hcolumns]
    rfl
  · rw [ofCsv_toCsv hcolumns hmark]
    -- each cell is written as before
    have hrecords : (table.rows.map Csv.reread).map
        (fun row => row.map fun cell => cell.display.toList)
          = table.rows.map fun row => row.map fun cell => cell.display.toList := by
      rw [List.map_map]
      refine List.map_congr_left fun row hrow => ?_
      show (Csv.reread row).map (fun cell => cell.display.toList) = _
      rw [h.reread_eq_map hcolumns hrow, List.map_map]
      refine List.map_congr_left fun cell hcell => ?_
      show (Cell.ofField cell.display).display.toList = cell.display.toList
      rw [Cell.display_ofField_display (h.cells row hrow cell hcell)]
    rw [toCsv, toCsv, Csv.encode, Csv.encode]
    dsimp only
    rw [hrecords]

end IsRead

end Table

end CsvQuery

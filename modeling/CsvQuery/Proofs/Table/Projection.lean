/-
  CsvQuery.Proofs.Table.Projection — commands after a projection.

  Under a selected name, the selected rows answer with the cells that the rows had under this name before:
  the name leads to its last position in either header, and a name that the table lacked leads to a column
  of absent cells.  Sorting and counting see rows only through the cells under one name, so they come out
  the same before and after, and a stable sort also keeps the rows it cannot tell apart as they were.

  Main results:
    • `cellOf_projected` — a selected name leads to the same cell before and after
    • `orderBy_eq` — sorting by a name, whether the table has the column or not
    • `IndexedTable.select_keeps_columns` — projecting, taking, sorting and counting after a projection
-/
import CsvQuery.Proofs.Table.Indexed

namespace CsvQuery

/-- The cells of a row that is made from a list. -/
theorem Row.cell_map {α : Type} (toCell : α → Cell) {items : List α} {position : Nat} {item : α}
    (h : items[position]? = some item) : Row.cell (items.map toCell) position = toCell item := by
  rw [Row.cell, List.getD_eq_getElem?_getD, List.getElem?_map, h]
  rfl

namespace IndexedTable

variable {table : IndexedTable} {names : List String} {column : String}

/-! ## §1. Cells under names -/

/-- The cell of a row under a column name, absent if the table lacks the column. -/
def cellOf (table : IndexedTable) (row : Row) (name : String) : Cell :=
  ((table.position name).map row.cell).getD .absent

/-- The cells of a row under some names. -/
def projected (table : IndexedTable) (names : List String) (row : Row) : Row :=
  names.map (table.cellOf row)

theorem cellOf_of_position {position : Nat} (h : table.position column = some position) (row : Row) :
    table.cellOf row column = row.cell position := by
  rw [cellOf, h]
  rfl

/-- Selecting replaces each row by its cells under the names. -/
theorem select_eq (table : IndexedTable) (names : List String) :
    table.select names = ⟨names, .ofColumns names, table.rows.map (table.projected names)⟩ := by
  have hproject (row : Row) : (names.map table.position).map
      (fun position => (position.map row.cell).getD .absent) = table.projected names row :=
    List.map_map
  unfold select
  simp only [hproject]
  rfl

/-- Every row of a selection is a projected row. -/
theorem rows_select (table : IndexedTable) (names : List String) :
    (table.select names).rows = table.rows.map (table.projected names) := by
  rw [select_eq]

theorem position_select (table : IndexedTable) (names : List String) (name : String) :
    (table.select names).position name = lastPosition name names :=
  ColumnIndex.getElem?_ofColumns name names

/-- A selected name leads to the same cell before and after. -/
theorem cellOf_projected {name : String} (h : name ∈ names) (row : Row) :
    (table.select names).cellOf (table.projected names row) name = table.cellOf row name := by
  cases hposition : lastPosition name names with
  | none => exact absurd h (lastPosition_eq_none_iff.mp hposition)
  | some position =>
    have hfound : (table.select names).position name = some position := by
      rw [position_select, hposition]
    rw [cellOf_of_position hfound]
    exact Row.cell_map _ (isLastPosition_of_lastPosition hposition).here

/-! ## §2. One command after a projection -/

/-- A second projection onto selected names leaves no trace of the first. -/
theorem select_select {wanted : List String} (h : ∀ name ∈ wanted, name ∈ names) :
    (table.select names).select wanted = table.select wanted := by
  have hrow (row : Row) :
      (table.select names).projected wanted (table.projected names row) = table.projected wanted row :=
    List.map_congr_left fun name hname => cellOf_projected (h name hname) row
  rw [select_eq (table.select names), select_eq table wanted, rows_select, List.map_map]
  congr 1
  exact List.map_congr_left fun row _ => hrow row

/-- Selecting and limiting commute. -/
theorem take_select (limit : Int64) :
    (table.select names).take limit = (table.take limit).select names := by
  rw [select_eq, select_eq]
  show IndexedTable.mk _ _ _ = IndexedTable.mk _ _ _
  rw [← List.map_take]
  rfl

/-- Sorting looks at the cells under the name only; where the table lacks the column these are all absent,
and nothing changes. -/
theorem orderBy_eq (table : IndexedTable) (column : String) :
    table.orderBy column = ⟨table.columns, table.index, table.rows.mergeSort fun a b =>
      Cell.descendingLe (table.cellOf a column) (table.cellOf b column)⟩ := by
  unfold orderBy
  cases h : table.position column with
  | none =>
    have habsent (row : Row) : table.cellOf row column = .absent := by
      rw [cellOf, h]
      rfl
    -- absent cells may stand in any order, so the rows are sorted as they are
    have hsorted : table.rows.mergeSort (fun _ _ => Cell.descendingLe .absent .absent) = table.rows :=
      List.mergeSort_of_pairwise (List.pairwise_of_forall fun _ _ => rfl)
    simp only [habsent]
    rw [hsorted]
  | some position =>
    simp only [cellOf_of_position h]

/-- Selecting and sorting commute if the column that decides is selected. -/
theorem orderBy_select (h : column ∈ names) :
    (table.select names).orderBy column = (table.orderBy column).select names := by
  -- the rows compare alike before and after, so they are sorted into the same order
  have hsort : (table.select names).rows.mergeSort (fun a b =>
        Cell.descendingLe ((table.select names).cellOf a column) ((table.select names).cellOf b column))
      = (table.rows.mergeSort fun a b =>
          Cell.descendingLe (table.cellOf a column) (table.cellOf b column)).map
        (table.projected names) := by
    rw [rows_select]
    refine (List.map_mergeSort ?_).symm
    intro a _ b _
    rw [cellOf_projected h, cellOf_projected h]
  rw [orderBy_eq (table.select names), orderBy_eq table, hsort, select_eq, select_eq]
  rfl

/-- Counting looks at the cells under the name only. -/
theorem counts_eq {position : Nat} (h : table.position column = some position) :
    table.counts column
      = (table.rows.map fun row => table.cellOf row column).foldl (fun counts cell => tally cell counts)
        [] := by
  unfold counts
  rw [h, List.foldl_map]
  simp only [cellOf_of_position h]

/-- Counting does not see a selection that its column is in. -/
theorem countBy_select (h : column ∈ names) (hcolumn : column ∈ table.index) :
    (table.select names).countBy column = table.countBy column := by
  obtain ⟨position, hposition⟩ : ∃ position, table.position column = some position :=
    Option.isSome_iff_exists.mp (Std.HashMap.isSome_getElem?_iff_mem.mpr hcolumn)
  obtain ⟨selected, hselected⟩ : ∃ selected, (table.select names).position column = some selected := by
    rw [position_select]
    exact Option.ne_none_iff_exists'.mp fun hnone => lastPosition_eq_none_iff.mp hnone h
  have hcells : (table.select names).rows.map (fun row => (table.select names).cellOf row column)
      = table.rows.map fun row => table.cellOf row column := by
    rw [rows_select, List.map_map]
    exact List.map_congr_left fun row _ => cellOf_projected h row
  have hcounts : (table.select names).counts column = table.counts column := by
    rw [counts_eq hselected, counts_eq hposition, hcells]
  unfold countBy
  rw [hcounts]
  rfl

/-! ## §3. What a projection keeps -/

/-- A projection has the names as its columns, with their index, and in each row the cells that the row had
under them, absent where the table lacks the name.  Nothing that comes after can tell it from the table as
far as the names go: a projection onto some of the names is the one of the table, taking and sorting come to
the same before and after, and the counts of a column of the table are those of the table. -/
theorem select_keeps_columns (table : IndexedTable) (names : List String) :
    ((table.select names).columns = names ∧ (table.select names).index = .ofColumns names ∧
      (table.select names).rows.length = table.rows.length ∧
      ∀ (place : Nat) (row : Row), table.rows[place]? = some row →
        ∃ kept, (table.select names).rows[place]? = some kept ∧ kept.length = names.length ∧
          ∀ position name, names[position]? = some name →
            kept.cell position = ((table.index[name]?).map row.cell).getD .absent) ∧
    (∀ wanted : List String, (∀ name ∈ wanted, name ∈ names) →
      (table.select names).select wanted = table.select wanted) ∧
    (∀ limit : Int64, (table.select names).take limit = (table.take limit).select names) ∧
    (∀ column ∈ names,
      (table.select names).orderBy column = (table.orderBy column).select names) ∧
    ∀ column ∈ names, column ∈ table.index →
      (table.select names).countBy column = table.countBy column := by
  refine ⟨?_, fun wanted => select_select, fun limit => take_select limit,
    fun column => orderBy_select, fun column => countBy_select⟩
  rw [select_eq]
  refine ⟨rfl, rfl, List.length_map _, fun place row hrow => ?_⟩
  refine ⟨table.projected names row, ?_, List.length_map _, fun position name hname => ?_⟩
  · rw [List.getElem?_map, hrow]
    rfl
  · exact Row.cell_map _ hname

/-- A name that stands twice in the table and twice in the selection, a name that the table lacks, and
short rows. -/
theorem select_keeps_columns_ragged :
    let table := (Table.mk ["k", "v", "k"] [[.int 1, .text "a", .int 3], [.int 2],
      [.int 3, .absent, .float (.ofWord 0x4008000000000000), .int 9], [.text "x", .text "b", .int 5]]).indexed
    let names := ["q", "k", "v", "k"]
    (∀ name ∈ ["k", "q", "q"], name ∈ names) ∧ "k" ∈ names ∧ "q" ∈ names ∧ "k" ∈ table.index ∧
    (table.select names).rows = [[.absent, .int 3, .text "a", .int 3], [.absent, .absent, .absent, .absent],
      [.absent, .float (.ofWord 0x4008000000000000), .absent, .float (.ofWord 0x4008000000000000)],
      [.absent, .int 5, .text "b", .int 5]] ∧
    (table.select names).select ["k", "q", "q"] = table.select ["k", "q", "q"] ∧
    (table.select names).take 2 = (table.take 2).select names ∧
    (table.select names).orderBy "k" = (table.orderBy "k").select names ∧
    (table.select names).orderBy "q" = (table.orderBy "q").select names ∧
    (table.select names).countBy "k" = table.countBy "k" := by
  intro table names
  have hwanted : ∀ name ∈ ["k", "q", "q"], name ∈ names := by decide
  have hk : "k" ∈ names := by decide
  have hq : "q" ∈ names := by decide
  have hindex : "k" ∈ table.index := Std.HashMap.isSome_getElem?_iff_mem.mp
    (congrArg Option.isSome (ColumnIndex.getElem?_ofColumns "k" ["k", "v", "k"]))
  obtain ⟨-, hselect, htake, horder, hcount⟩ := select_keeps_columns table names
  refine ⟨hwanted, hk, hq, hindex, ?_, hselect _ hwanted, htake 2, horder "k" hk, horder "q" hq,
    hcount "k" hk hindex⟩
  rw [← Table.indexed_select]
  rfl

end IndexedTable

end CsvQuery

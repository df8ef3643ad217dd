/-
  CsvQuery.Proofs.Table.Grouping — counting rows by the values of a column.

  The values stand in the order in which they first occur and in the form that they have there.  One more
  cell either counts for the entry of its value, which stays what it was, or is the first of its value and
  opens an entry at the end; so entries are first occurrences from left to right at every step.  An entry
  found by a hash is the entry found by equality, as equal cells have one hash.

  Main results:
    • `IsGroupedCount.tally` — one more cell
    • `isGroupedCount_foldl` — all cells of a column
    • `tallyHashed_eq` — looking values up by a hash, whichever it is
    • `Table.countBy_grouped` — the table of counts
-/
import CsvQuery.Proofs.Cell.Hash
import CsvQuery.Proofs.Table.Counting
import CsvQuery.Proofs.Table.Indexed
import CsvQuery.Table.HashCount

namespace CsvQuery

/-! ## §1. First occurrences -/

/-- The value stands at the place, and no cell before it is equal to it. -/
structure IsFirstAt (cells : List Cell) (place : Nat) (value : Cell) : Prop where
  here : cells[place]? = some value
  before : ∀ earlier < place, ∀ cell, cells[earlier]? = some cell → ¬(cell == value) = true

theorem IsFirstAt.lt_length {cells : List Cell} {place : Nat} {value : Cell}
    (h : IsFirstAt cells place value) : place < cells.length :=
  (List.getElem?_eq_some_iff.mp h.here).1

theorem lt_length_of_mem_places {cells values : List Cell} {places : List Nat}
    (h : List.Forall₂ (IsFirstAt cells) places values) {place : Nat} (hplace : place ∈ places) :
    place < cells.length := by
  induction h with
  | nil => cases hplace
  | cons hfirst _ ih =>
    rcases List.mem_cons.mp hplace with rfl | hrest
    · exact hfirst.lt_length
    · exact ih hrest

/-- What stands first somewhere stands first there in a longer list. -/
theorem IsFirstAt.append {cells : List Cell} {place : Nat} {value : Cell} (h : IsFirstAt cells place value)
    (more : List Cell) : IsFirstAt (cells ++ more) place value := by
  have hplace := h.lt_length
  refine ⟨?_, fun earlier hearlier cell hcell => h.before earlier hearlier cell ?_⟩
  · rw [List.getElem?_append_left hplace]
    exact h.here
  · rwa [List.getElem?_append_left (hearlier.trans hplace)] at hcell

/-- A cell that no cell before it is equal to is the first of its value. -/
theorem isFirstAt_append_singleton {cells : List Cell} {value : Cell}
    (h : ∀ cell ∈ cells, ¬(cell == value) = true) : IsFirstAt (cells ++ [value]) cells.length value := by
  refine ⟨List.getElem?_concat_length, fun earlier hearlier cell hcell => h cell ?_⟩
  rw [List.getElem?_append_left hearlier] at hcell
  exact List.mem_of_getElem? hcell

/-! ## §2. Grouped counts -/

/-- A tally whose values are the first occurrences among the cells, from left to right, and whose numbers
add up to the number of cells. -/
structure IsGroupedCount (cells : List Cell) (entries : List (Cell × Nat)) : Prop
    extends IsTally cells entries where
  firstSeen : ∃ places : List Nat, places.Pairwise (· < ·) ∧
    List.Forall₂ (IsFirstAt cells) places (entries.map Prod.fst)
  total : (entries.map Prod.snd).sum = cells.length

theorem isGroupedCount_nil : IsGroupedCount [] [] where
  toIsTally := isTally_nil
  firstSeen := ⟨[], .nil, .nil⟩
  total := rfl

/-- One more cell makes a grouped count of one cell more. -/
theorem IsGroupedCount.tally {cells : List Cell} {entries : List (Cell × Nat)}
    (h : IsGroupedCount cells entries) (value : Cell) :
    IsGroupedCount (cells ++ [value]) (CsvQuery.tally value entries) := by
  obtain ⟨places, hplaces, hfirst⟩ := h.firstSeen
  have hlater : List.Forall₂ (IsFirstAt (cells ++ [value])) places (entries.map Prod.fst) :=
    hfirst.imp fun _ _ hplace => hplace.append [value]
  refine ⟨h.toIsTally.tally value, ?_, ?_⟩
  · rcases tally_cases value entries with ⟨before, seen, n, after, heq, -, htally⟩ | ⟨hnone, htally⟩
    · -- the values stay what they are, and so do their first places
      refine ⟨places, hplaces, ?_⟩
      rw [htally, List.map_append, List.map_cons]
      rwa [heq, List.map_append, List.map_cons] at hlater
    · -- the values cover the cells before, so the new one occurs at the end for the first time
      have hnew : ∀ cell ∈ cells, ¬(cell == value) = true := by
        intro cell hcell hbeq
        obtain ⟨seen, hseen, hcovers⟩ := h.covers cell hcell
        exact hnone seen hseen (BEq.trans hcovers hbeq)
      refine ⟨places ++ [cells.length], ?_, ?_⟩
      · rw [List.pairwise_append]
        refine ⟨hplaces, List.pairwise_singleton _ _, fun place hplace last hlast => ?_⟩
        rw [List.mem_singleton.mp hlast]
        exact lt_length_of_mem_places hfirst hplace
      · rw [htally, List.map_append]
        exact List.rel_append hlater (.cons (isFirstAt_append_singleton hnew) .nil)
  · rw [List.length_append, List.length_singleton, ← h.total]
    rcases tally_cases value entries with ⟨before, seen, n, after, heq, -, htally⟩ | ⟨-, htally⟩
    · rw [htally, heq]
      simp only [List.map_append, List.map_cons, List.sum_append, List.sum_cons]
      omega
    · rw [htally, List.map_append, List.sum_append]
      rfl

/-- Counting cells one after the other groups them. -/
theorem isGroupedCount_foldl (cells : List Cell) :
    IsGroupedCount cells (cells.foldl (fun entries cell => CsvQuery.tally cell entries) []) := by
  induction cells using List.reverseRecOn with
  | nil => exact isGroupedCount_nil
  | append_singleton cells cell ih =>
    rw [List.foldl_append]
    exact ih.tally cell

/-- No number is greater than that of all cells. -/
theorem IsGroupedCount.le_length {cells : List Cell} {entries : List (Cell × Nat)}
    (h : IsGroupedCount cells entries) {entry : Cell × Nat} (hentry : entry ∈ entries) :
    entry.2 ≤ cells.length := by
  rw [h.counted entry hentry]
  exact List.countP_le_length

/-! ## §3. Looking values up by a hash -/

/-- Counting an entry where it is found, or at the end, is a tally. -/
theorem tally_eq_findIdx? (value : Cell) (entries : List (Cell × Nat)) :
    tally value entries
      = match entries.findIdx? fun entry => entry.1 == value with
        | some place => entries.modify place fun (seen, n) => (seen, n + 1)
        | none => entries ++ [(value, 1)] := by
  induction entries with
  | nil => rfl
  | cons entry entries ih =>
    obtain ⟨seen, n⟩ := entry
    rw [tally, List.findIdx?_cons]
    by_cases hseen : (seen == value) = true
    · rw [if_pos hseen, if_pos hseen]
      rfl
    · rw [if_neg hseen, if_neg hseen, ih]
      cases entries.findIdx? fun entry => entry.1 == value <;> rfl

/-- Whatever the hash, it finds the entries that equality finds. -/
theorem tallyHashed_eq (hash : List UInt8 → UInt64) (value : Cell) (entries : List (Cell × Nat)) :
    tallyHashed hash value entries = tally value entries := by
  have hsame : (fun entry : Cell × Nat =>
      hash entry.1.hashBytes == hash value.hashBytes && entry.1 == value)
      = fun entry => entry.1 == value := by
    funext entry
    by_cases hbeq : (entry.1 == value) = true
    · -- equal cells feed the same bytes
      rw [(Cell.hashBytes_eq_iff_beq entry.1 value).mpr hbeq, hbeq, beq_self_eq_true]
      rfl
    · rw [Bool.not_eq_true] at hbeq
      rw [hbeq, Bool.and_false]
  rw [tally_eq_findIdx?, ← hsame]
  rfl

namespace Table

/-- Counting by hashes gives the counts, whatever the hash. -/
theorem hashedCounts_eq (hash : List UInt8 → UInt64) (table : Table) (column : String) :
    table.hashedCounts hash column = table.counts column := by
  have htally : tallyHashed hash = CsvQuery.tally := by
    funext value entries
    exact tallyHashed_eq hash value entries
  unfold hashedCounts counts
  cases table.position column with
  | none => rfl
  | some position =>
    show table.rows.foldl (fun counts row => tallyHashed hash (row.cell position) counts) []
      = table.rows.foldl (fun counts row => CsvQuery.tally (row.cell position) counts) []
    rw [htally]

/-! ## §4. Tables -/

/-- The counts of a column are a grouped count of its cells. -/
theorem isGroupedCount_counts {table : Table} {column : String} {position : Nat}
    (h : table.position column = some position) :
    IsGroupedCount (table.rows.map fun row => row.cell position) (table.counts column) := by
  have hcells := isGroupedCount_foldl (table.rows.map fun row => row.cell position)
  unfold counts
  rw [h]
  rwa [List.foldl_map] at hcells

/-- A number below `2 ^ 63` is a cell as it is. -/
theorem exists_ofCount {n : Nat} (h : n < 2 ^ 63) : ∃ i : Int64, Cell.ofCount n = .int i ∧ i.toInt = n := by
  have hmin := Int64.toInt_minValue
  have hmax := Int64.toInt_maxValue
  exact ⟨_, rfl, Int64.toInt_ofIntClamp (by omega) (by omega)⟩

/-- The table of counts has the counted column and `count` for its columns, with the index of these two.
It has no rows if the index lacks the column, and else one row for each value at the last position of the
column, in the order and in the form of its first occurrence, with the number of rows that have an equal
cell there; these numbers add up to the number of rows.  Finding the values by a hash comes to the same,
whichever hash it is. -/
theorem countBy_grouped (table : Table) (column : String) :
    (table.indexed.countBy column).columns = [column, "count"] ∧
    (table.indexed.countBy column).index = .ofColumns [column, "count"] ∧
    (∀ name, (table.indexed.countBy column).index[name]? = lastPosition name [column, "count"]) ∧
    (table.indexed.index[column]? = none → (table.indexed.countBy column).rows = []) ∧
    (∀ position, IsLastPosition column table.columns position →
      ∃ entries, IsGroupedCount (table.rows.map fun row => row.cell position) entries ∧
        (table.indexed.countBy column).rows = entries.map (fun entry => [entry.1, .ofCount entry.2]) ∧
        (table.rows.length < 2 ^ 63 →
          ∀ entry ∈ entries, ∃ i : Int64, Cell.ofCount entry.2 = .int i ∧ i.toInt = entry.2)) ∧
    ∀ hash, table.hashedCounts hash column = table.indexed.counts column := by
  refine ⟨rfl, rfl, fun name => ColumnIndex.getElem?_ofColumns name _, fun hnone => ?_,
    fun position hposition => ?_, fun hash => ?_⟩
  · have hcounts : table.indexed.counts column = [] := by
      unfold IndexedTable.counts IndexedTable.position
      rw [hnone]
    unfold IndexedTable.countBy
    rw [hcounts]
    rfl
  · have hgrouped := isGroupedCount_counts (lastPosition_eq_some_iff.mpr hposition)
    refine ⟨_, hgrouped, ?_, fun hrows entry hentry => exists_ofCount ?_⟩
    · unfold IndexedTable.countBy
      rw [counts_indexed]
    · have hle := hgrouped.le_length hentry
      rw [List.length_map] at hle
      omega
  · rw [hashedCounts_eq, counts_indexed]

/-- A column named `count` itself, with one value in both forms, another kind and a short row. -/
theorem countBy_grouped_forms :
    let table : Table := ⟨["count"], [[.float (.ofWord 0x3FF0000000000000)], [.int 1], [.absent],
      [.text "1"], []]⟩
    IsLastPosition "count" table.columns 0 ∧ table.indexed.index["q"]? = none ∧
    (table.indexed.countBy "q").rows = [] ∧
    (table.indexed.countBy "count").index["count"]? = some 1 ∧
    (∃ entries, IsGroupedCount (table.rows.map fun row => row.cell 0) entries ∧
      (table.indexed.countBy "count").rows = entries.map fun entry => [entry.1, .ofCount entry.2]) ∧
    (table.countBy "count").rows = [[.float (.ofWord 0x3FF0000000000000), .int 2], [.absent, .int 2],
      [.text "1", .int 1]] := by
  intro table
  have hlast : IsLastPosition "count" table.columns 0 := isLastPosition_of_lastPosition (by decide)
  have hnone : table.indexed.index["q"]? = none :=
    (ColumnIndex.getElem?_ofColumns "q" table.columns).trans (by decide)
  obtain ⟨-, -, hindex, -, hgroups, -⟩ := countBy_grouped table "count"
  obtain ⟨-, -, -, hlacks, -, -⟩ := countBy_grouped table "q"
  obtain ⟨entries, hgrouped, hrows, -⟩ := hgroups 0 hlast
  exact ⟨hlast, hnone, hlacks hnone, hindex "count", ⟨entries, hgrouped, hrows⟩, by decide +kernel⟩

end Table

end CsvQuery

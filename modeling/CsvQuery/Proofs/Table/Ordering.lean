/-
  CsvQuery.Proofs.Table.Ordering — sorting a table by a column.

  For sorting, all that is no number counts like an absent cell, which is below all numbers.  So rows are
  compared as cells are, the other way round, and this is an order up to ties.  A stable sort by it puts
  the numbers first, from the greatest value down, leaves the rest behind them as it was, and keeps tied
  rows in their places relative to each other.  That leaves no choice: there is one such list of rows.

  Main results:
    • `exists_stable_order` — where merge sort takes each element from
    • `Cell.descending_eq` — the comparison, through the order of cells
    • `sortedDescending_mergeSort` — what the sorted rows are
    • `SortedDescending.unique` — no other list of rows is sorted so
    • `Table.orderBy_stable_descending` — sorting a table, with its columns and its index
-/
import Mathlib.Order.Defs.Unbundled
import CsvQuery.Proofs.Cell.Value
import CsvQuery.Proofs.Table.Indexed

namespace CsvQuery

/-! ## §1. Stable sorting -/

/-- Merge sort takes the elements of a list from their places in some order, in which each may stand before
all later ones, and elements that may stand in either order keep their places relative to each other. -/
theorem exists_stable_order {α : Type} {le : α → α → Bool}
    (trans : ∀ a b c, le a b = true → le b c = true → le a c = true)
    (total : ∀ a b, (le a b || le b a) = true) (elements : List α) :
    ∃ order : List (α × Nat), order.Perm elements.zipIdx ∧
      order.map Prod.fst = elements.mergeSort le ∧
      order.Pairwise fun a b => le a.1 b.1 = true ∧ (le b.1 a.1 = true → a.2 < b.2) := by
  refine ⟨elements.zipIdx.mergeSort (List.zipIdxLE le), List.mergeSort_perm _ _, List.mergeSort_zipIdx, ?_⟩
  have hsorted := List.pairwise_mergeSort (List.zipIdxLE_trans trans) (List.zipIdxLE_total total)
    elements.zipIdx
  -- no two elements come from one place
  have hplaces : (elements.zipIdx.mergeSort (List.zipIdxLE le)).Pairwise fun a b => a.2 ≠ b.2 := by
    rw [← List.pairwise_map (f := Prod.snd) (R := (· ≠ ·))]
    have hperm := (List.mergeSort_perm elements.zipIdx (List.zipIdxLE le)).map Prod.snd
    rw [List.zipIdx_map_snd] at hperm
    exact hperm.nodup_iff.mpr List.nodup_range'
  refine (hsorted.and hplaces).imp ?_
  intro a b h
  obtain ⟨hle, hne⟩ := h
  unfold List.zipIdxLE at hle
  by_cases hab : le a.1 b.1 = true
  · refine ⟨hab, fun htie => ?_⟩
    rw [if_pos hab, if_pos htie, decide_eq_true_eq] at hle
    omega
  · rw [if_neg hab] at hle
    cases hle

/-- Where the elements with a property stand before all others, they can be cut off. -/
theorem eq_filter_append_filter {α : Type} {p : α → Bool} {elements : List α}
    (h : elements.Pairwise fun a b => p b = true → p a = true) :
    elements = elements.filter p ++ elements.filter (!p ·) := by
  induction elements with
  | nil => rfl
  | cons a elements ih =>
    obtain ⟨hfirst, hrest⟩ := List.pairwise_cons.mp h
    by_cases ha : p a = true
    · rw [List.filter_cons_of_pos ha, List.filter_cons_of_neg (by simp [ha]), List.cons_append,
        ← ih hrest]
    · -- behind an element without the property there is none with it
      have hnone : ∀ b ∈ a :: elements, ¬p b = true :=
        List.forall_mem_cons.mpr ⟨ha, fun b hb hpb => ha (hfirst b hb hpb)⟩
      rw [List.filter_eq_nil_iff.mpr hnone, List.nil_append, List.filter_eq_self.mpr]
      intro b hb
      simpa using hnone b hb

/-! ## §2. The comparison -/

namespace Cell

/-- What a cell counts for in sorting: what is no number counts like an absent cell. -/
def asNumber (a : Cell) : Cell := if a.isNumeric then a else .absent

theorem absent_lt_of_isNumeric {a : Cell} (h : a.isNumeric = true) : compare absent a = .lt :=
  Standing.compare_of_rank_lt (rank_standing_of_isNumeric h).1

/-- Sorting compares what the cells count for, the other way round. -/
theorem descending_eq (a b : Cell) : a.descending b = compare b.asNumber a.asNumber := by
  unfold descending asNumber
  cases ha : a.isNumeric with
  | true =>
    cases hb : b.isNumeric with
    | true => rfl
    | false => exact (absent_lt_of_isNumeric ha).symm
  | false =>
    cases hb : b.isNumeric with
    | true => exact (Std.OrientedCmp.gt_iff_lt.mpr (absent_lt_of_isNumeric hb)).symm
    | false => rfl

theorem descendingLe_eq (a b : Cell) : a.descendingLe b = (a.descending b).isLE := by
  unfold descendingLe descending
  cases a.isNumeric <;> cases b.isNumeric <;> rfl

instance : Std.TransCmp descending := by
  have heq : descending = fun a b => compare b.asNumber a.asNumber := by
    funext a b
    exact descending_eq a b
  rw [heq]
  exact {
    eq_swap := fun {a b} => Std.OrientedCmp.eq_swap
    isLE_trans := fun {a b c} hab hbc => Std.TransCmp.isLE_trans hbc hab }

/-- The other way round, the comparison is reversed. -/
theorem descending_swap (a b : Cell) : b.descending a = (a.descending b).swap := Std.OrientedCmp.eq_swap

/-- To stand before another in sorting is a strict order up to ties. -/
theorem isStrictWeakOrder_descending : IsStrictWeakOrder Cell fun a b => a.descending b = .lt where
  irrefl a := by
    have hself : a.descending a = .eq := Std.ReflCmp.compare_self
    rw [hself]
    exact nofun
  trans a b c := Std.TransCmp.lt_trans
  incomp_trans a b c := by
    -- where neither stands before the other, the comparison is a tie
    have htie (a b : Cell) : ¬a.descending b = .lt ∧ ¬b.descending a = .lt ↔ a.descending b = .eq := by
      rw [descending_swap a b]
      cases a.descending b <;> simp
    rw [htie, htie, htie]
    exact Std.TransCmp.eq_trans

/-- A cell may stand before another unless that one has to stand before it. -/
theorem descendingLe_iff {a b : Cell} : a.descendingLe b = true ↔ ¬b.descending a = .lt := by
  rw [descendingLe_eq, descending_swap a b]
  cases a.descending b <;> simp

theorem descendingLe_trans {a b c : Cell} (hab : a.descendingLe b = true) (hbc : b.descendingLe c = true) :
    a.descendingLe c = true := by
  rw [descendingLe_eq] at hab hbc ⊢
  exact Std.TransCmp.isLE_trans hab hbc

theorem descendingLe_total (a b : Cell) : (a.descendingLe b || b.descendingLe a) = true := by
  rw [descendingLe_eq, descendingLe_eq, descending_swap a b]
  cases a.descending b <;> rfl

/-! ## §3. Numbers and ties -/

/-- A number that is worth at least as much as another one, or is not a number and so above all. -/
def AtLeast (a b : Cell) : Prop :=
  a = .float .nan ∨ ∃ u v, a.value? = some u ∧ b.value? = some v ∧ v ≤ u

/-- Cells that sorting does not tell apart: equal numbers, and any cells that are no numbers. -/
def Tied (a b : Cell) : Prop :=
  (a.isNumeric = true ∧ b.isNumeric = true ∧ (a == b) = true) ∨
    (a.isNumeric = false ∧ b.isNumeric = false)

theorem eq_nan_of_value? {a : Cell} (ha : a.isNumeric = true) (h : a.value? = none) :
    a = .float .nan := by
  cases a with
  | absent => cases ha
  | int i => cases h
  | float x => rw [Binary64.value?_eq_none_iff.mp h]
  | text s => cases ha

/-- A number with a value is worth at least as much as those with no greater one. -/
theorem atLeast_iff_of_value? {a b : Cell} {u : ExactValue} (hu : a.value? = some u) :
    a.AtLeast b ↔ ∃ v, b.value? = some v ∧ v ≤ u := by
  constructor
  · intro h
    obtain hnan | ⟨u', v, hu', hv, hle⟩ := h
    · rw [hnan] at hu
      cases hu
    · rw [hu] at hu'
      cases hu'
      exact ⟨v, hv, hle⟩
  · intro h
    obtain ⟨v, hv, hle⟩ := h
    exact .inr ⟨u, v, hu, hv, hle⟩

/-- Numbers may stand in falling order exactly when the first is worth at least as much. -/
theorem atLeast_iff_le {a b : Cell} (ha : a.isNumeric = true) (hb : b.isNumeric = true) :
    a.AtLeast b ↔ b.le a = true := by
  cases hu : a.value? with
  | none =>
    -- what is not a number is above all numbers with a value
    refine iff_of_true (.inl (eq_nan_of_value? ha hu)) ?_
    rw [eq_nan_of_value? ha hu]
    cases hv : b.value? with
    | none =>
      rw [eq_nan_of_value? hb hv]
      exact le_of_beq (beq_refl _)
    | some v =>
      have hlt : compare b (.float .nan) = .lt :=
        Standing.compare_of_rank_lt (denotes_of_value? hv).rank_lt
      rw [le_iff, hlt]
      rfl
  | some u =>
    have hdenotes := denotes_of_value? hu
    rw [atLeast_iff_of_value? hu, le_iff, Std.OrientedOrd.eq_swap (a := b)]
    cases hv : b.value? with
    | none =>
      have hlt : compare a b = .lt := by
        rw [eq_nan_of_value? hb hv]
        exact Standing.compare_of_rank_lt hdenotes.rank_lt
      rw [hlt]
      exact iff_of_false nofun nofun
    | some v =>
      have hlt : compare a b = .lt ↔ u < v := hdenotes.compare_eq_lt_iff (denotes_of_value? hv)
      have hle : (compare a b).swap.isLE = true ↔ ¬compare a b = .lt := by
        cases compare a b <;> simp
      rw [hle, hlt, not_lt]
      simp

/-- What is no number may stand behind everything. -/
theorem descendingLe_of_not_isNumeric (a : Cell) {b : Cell} (hb : b.isNumeric = false) :
    a.descendingLe b = true := by
  unfold descendingLe
  rw [hb]
  cases a.isNumeric <;> rfl

/-- Only a number may stand before a number in sorting, and only if it is worth at least as much. -/
theorem descendingLe_iff_atLeast {a b : Cell} (hb : b.isNumeric = true) :
    a.descendingLe b = true ↔ a.isNumeric = true ∧ a.AtLeast b := by
  cases ha : a.isNumeric with
  | true =>
    rw [atLeast_iff_le ha hb]
    simp [descendingLe, ha, hb]
  | false => simp [descendingLe, ha, hb]

/-- Two cells are tied exactly when they may stand in either order. -/
theorem tied_iff {a b : Cell} : a.Tied b ↔ a.descendingLe b = true ∧ b.descendingLe a = true := by
  unfold Tied descendingLe
  cases a.isNumeric with
  | true =>
    cases b.isNumeric with
    | true =>
      simp only [and_self, true_and, Bool.true_eq_false, or_false]
      exact ⟨fun h => ⟨le_of_beq (BEq.symm h), le_of_beq h⟩, fun h => beq_of_le_of_le h.2 h.1⟩
    | false => simp
  | false => cases b.isNumeric <;> simp

end Cell

/-! ## §4. Sorted rows -/

/-- The second list has the rows of the first, those with numbers at a position before all others and from
the greatest value down, and tied rows in their old order. -/
structure SortedDescending (position : Nat) (rows sorted : List Row) : Prop where
  perm : sorted.Perm rows
  numbersFirst : ∃ numbers others, sorted = numbers ++ others ∧
    (∀ row ∈ numbers, (row.cell position).isNumeric = true) ∧
    (∀ row ∈ others, (row.cell position).isNumeric = false) ∧
    numbers.Pairwise fun a b => (a.cell position).AtLeast (b.cell position)
  /-- The rows with the places that they come from, in their new order. -/
  stable : ∃ order : List (Row × Nat), order.Perm rows.zipIdx ∧ order.map Prod.fst = sorted ∧
    order.Pairwise fun a b => (a.1.cell position).Tied (b.1.cell position) → a.2 < b.2

/-- A row may stand before another one for its cell and, if both may stand in either order, for the place
that it comes from. -/
def Precedes (position : Nat) (a b : Row × Nat) : Prop :=
  (a.1.cell position).descendingLe (b.1.cell position) = true ∧
    ((b.1.cell position).descendingLe (a.1.cell position) = true → a.2 < b.2)

instance (position : Nat) (a b : Row × Nat) : Decidable (Precedes position a b) :=
  inferInstanceAs (Decidable (_ ∧ _))

/-- Rows are sorted when they are taken from their places in an order in which each precedes all later
ones. -/
theorem sortedDescending_of_order {position : Nat} {rows : List Row} {order : List (Row × Nat)}
    (hperm : order.Perm rows.zipIdx) (horder : order.Pairwise (Precedes position)) :
    SortedDescending position rows (order.map Prod.fst) := by
  have hsorted : (order.map Prod.fst).Pairwise
      fun a b => (a.cell position).descendingLe (b.cell position) = true := by
    rw [List.pairwise_map]
    exact horder.imp And.left
  refine ⟨?_, ?_, order, hperm, rfl, horder.imp fun h htied => h.2 (Cell.tied_iff.mp htied).2⟩
  · have hrows := hperm.map Prod.fst
    rwa [List.zipIdx_map_fst] at hrows
  · have hfirst := eq_filter_append_filter (p := fun row : Row => (row.cell position).isNumeric)
      (hsorted.imp fun h hb => ((Cell.descendingLe_iff_atLeast hb).mp h).1)
    refine ⟨_, _, hfirst, fun row hrow => (List.mem_filter.mp hrow).2, fun row hrow => ?_, ?_⟩
    · simpa using (List.mem_filter.mp hrow).2
    · refine List.Pairwise.imp_of_mem ?_ (hsorted.filter _)
      intro a b _ hb h
      exact ((Cell.descendingLe_iff_atLeast (List.mem_filter.mp hb).2).mp h).2

/-- Sorted rows are taken from their places in such an order. -/
theorem SortedDescending.exists_order {position : Nat} {rows sorted : List Row}
    (h : SortedDescending position rows sorted) :
    ∃ order : List (Row × Nat), order.Perm rows.zipIdx ∧ order.map Prod.fst = sorted ∧
      order.Pairwise (Precedes position) := by
  obtain ⟨numbers, others, hsplit, hnumbers, hothers, hfalling⟩ := h.numbersFirst
  obtain ⟨order, hperm, hmap, hstable⟩ := h.stable
  have hsorted : sorted.Pairwise
      fun a b => (a.cell position).descendingLe (b.cell position) = true := by
    have hbehind (a b : Row) (hb : b ∈ others) :
        (a.cell position).descendingLe (b.cell position) = true :=
      Cell.descendingLe_of_not_isNumeric _ (hothers b hb)
    rw [hsplit, List.pairwise_append]
    refine ⟨hfalling.imp_of_mem fun ha hb hleast => ?_,
      List.pairwise_of_forall_mem_list fun a _ b hb => hbehind a b hb, fun a _ b hb => hbehind a b hb⟩
    exact (Cell.descendingLe_iff_atLeast (hnumbers _ hb)).mpr ⟨hnumbers _ ha, hleast⟩
  rw [← hmap, List.pairwise_map] at hsorted
  refine ⟨order, hperm, hmap, (hsorted.and hstable).imp ?_⟩
  intro a b h
  obtain ⟨hab, htied⟩ := h
  exact ⟨hab, fun hba => htied (Cell.tied_iff.mpr ⟨hab, hba⟩)⟩

/-- There is only one list of sorted rows. -/
theorem SortedDescending.unique {position : Nat} {rows sorted sorted' : List Row}
    (h : SortedDescending position rows sorted) (h' : SortedDescending position rows sorted') :
    sorted = sorted' := by
  obtain ⟨order, hperm, hmap, horder⟩ := h.exists_order
  obtain ⟨order', hperm', hmap', horder'⟩ := h'.exists_order
  -- of two rows only one precedes the other, by its place if not by its cell
  have hasymm (a b : Row × Nat) (hab : Precedes position a b) (hba : Precedes position b a) : a = b :=
    absurd (hab.2 hba.1) (Nat.lt_asymm (hba.2 hab.1))
  have horders : order = order' :=
    (hperm.trans hperm'.symm).eq_of_pairwise (fun a b _ _ => hasymm a b) horder horder'
  rw [← hmap, ← hmap', horders]

/-- A stable sort puts the numbers first, from the greatest value down. -/
theorem sortedDescending_mergeSort (position : Nat) (rows : List Row) :
    SortedDescending position rows
      (rows.mergeSort fun a b => Cell.descendingLe (a.cell position) (b.cell position)) := by
  have trans : ∀ a b c : Row, (a.cell position).descendingLe (b.cell position) = true →
      (b.cell position).descendingLe (c.cell position) = true →
      (a.cell position).descendingLe (c.cell position) = true := fun _ _ _ => Cell.descendingLe_trans
  have total : ∀ a b : Row, ((a.cell position).descendingLe (b.cell position)
      || (b.cell position).descendingLe (a.cell position)) = true :=
    fun _ _ => Cell.descendingLe_total _ _
  obtain ⟨order, hperm, hmap, horder⟩ := exists_stable_order trans total rows
  rw [← hmap]
  exact sortedDescending_of_order hperm horder

/-! ## §5. Tables -/

namespace Table

/-- Sorting a table by a column that its index lacks changes nothing.  Else the columns and their index
stay, and the rows are sorted stably by the cells at the last position of the column, numbers from the
greatest value down and all else behind them; the comparison is a strict order up to ties on all cells. -/
theorem orderBy_stable_descending (table : Table) (column : String) :
    IsStrictWeakOrder Cell (fun a b => a.descending b = .lt) ∧
    (∀ a b : Cell, a.descendingLe b = true ↔ ¬b.descending a = .lt) ∧
    (table.indexed.index[column]? = none → table.indexed.orderBy column = table.indexed) ∧
    ∀ position, IsLastPosition column table.columns position →
      (table.indexed.orderBy column).columns = table.columns ∧
      (table.indexed.orderBy column).index = table.indexed.index ∧
      SortedDescending position table.rows (table.indexed.orderBy column).rows := by
  refine ⟨Cell.isStrictWeakOrder_descending, fun a b => Cell.descendingLe_iff, fun hnone => ?_,
    fun position hposition => ?_⟩
  · unfold IndexedTable.orderBy IndexedTable.position
    rw [hnone]
  · have hfound : table.indexed.position column = some position := by
      rw [position_indexed]
      exact lastPosition_eq_some_iff.mpr hposition
    unfold IndexedTable.orderBy
    rw [hfound]
    exact ⟨rfl, rfl, sortedDescending_mergeSort position table.rows⟩

/-- Short rows, a number in both forms, not-a-number, and a name that stands twice: not-a-number comes
first, then `7`, then both forms of `2` as they stood, and last the rows without a number. -/
theorem orderBy_stable_descending_ragged :
    let a : Row := [.text "a"]
    let b : Row := [.text "b", .absent, .int 2]
    let c : Row := [.text "c", .absent, .text "x"]
    let d : Row := [.text "d", .absent, .float (.ofWord 0x4000000000000000)]
    let e : Row := [.text "e", .int 9, .float .nan]
    let f : Row := [.text "f", .int 9, .int 7]
    let table : Table := ⟨["n", "k", "k"], [a, b, c, d, e, f]⟩
    IsLastPosition "k" table.columns 2 ∧
    (table.indexed.orderBy "k").columns = ["n", "k", "k"] ∧
    SortedDescending 2 table.rows (table.indexed.orderBy "k").rows ∧
    (table.indexed.orderBy "k").rows = [e, f, b, d, a, c] ∧
    table.indexed.index["q"]? = none ∧ table.indexed.orderBy "q" = table.indexed := by
  intro a b c d e f table
  have hlast : IsLastPosition "k" table.columns 2 := isLastPosition_of_lastPosition (by decide)
  have hnone : table.indexed.index["q"]? = none :=
    (ColumnIndex.getElem?_ofColumns "q" table.columns).trans (by decide)
  obtain ⟨-, -, -, hsorts⟩ := orderBy_stable_descending table "k"
  obtain ⟨-, -, hlacks, -⟩ := orderBy_stable_descending table "q"
  have hrows : SortedDescending 2 table.rows
      ([(e, 4), (f, 5), (b, 1), (d, 3), (a, 0), (c, 2)].map Prod.fst) :=
    sortedDescending_of_order (by decide) (by decide)
  exact ⟨hlast, (hsorts 2 hlast).1, (hsorts 2 hlast).2.2, (hsorts 2 hlast).2.2.unique hrows, hnone,
    hlacks hnone⟩

end Table

end CsvQuery

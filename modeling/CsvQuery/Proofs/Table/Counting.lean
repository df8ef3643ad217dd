/-
  CsvQuery.Proofs.Table.Counting — what the counts of a column say.

  A tally of cells has one entry for every value among them and the number of cells equal to it.  The
  counts are built one cell at a time, and each step turns a tally of the cells so far into a tally of
  one more.  Tallies of cells that can be paired off with equal ones can be paired off themselves: the
  order of the entries may differ, and the forms in which their values stand, but nothing else.

  Main results:
    • `IsTally.tally` — one more cell
    • `Table.isTally_counts` — the counts of a column are a tally of its cells
    • `IsTally.rel` — tallies of cells that are equal in some order
-/
import Mathlib.Data.List.Induction
import Mathlib.Data.Multiset.Count
import CsvQuery.Proofs.Cell.Order
import CsvQuery.Table.Count

namespace CsvQuery

/-! ## §1. Tallies -/

/-- The entries have the values among the cells, each once, with their numbers of cells. -/
structure IsTally (cells : List Cell) (entries : List (Cell × Nat)) : Prop where
  distinct : (entries.map Prod.fst).Pairwise fun a b => ¬(a == b) = true
  occurs : ∀ value ∈ entries.map Prod.fst, value ∈ cells
  covers : ∀ cell ∈ cells, ∃ value ∈ entries.map Prod.fst, (value == cell) = true
  counted : ∀ entry ∈ entries, entry.2 = cells.countP fun cell => entry.1 == cell

theorem isTally_nil : IsTally [] [] := ⟨.nil, nofun, nofun, nofun⟩

/-- A value that is there counts one more in its place; a new one comes last. -/
theorem tally_cases (value : Cell) (entries : List (Cell × Nat)) :
    (∃ before seen n after, entries = before ++ (seen, n) :: after ∧ (seen == value) = true ∧
        tally value entries = before ++ (seen, n + 1) :: after) ∨
      (∀ seen ∈ entries.map Prod.fst, ¬(seen == value) = true) ∧
        tally value entries = entries ++ [(value, 1)] := by
  induction entries with
  | nil => exact .inr ⟨nofun, rfl⟩
  | cons entry entries ih =>
    obtain ⟨seen, n⟩ := entry
    by_cases hseen : (seen == value) = true
    · exact .inl ⟨[], seen, n, entries, rfl, hseen, by rw [tally, if_pos hseen]; rfl⟩
    · have hcons : tally value ((seen, n) :: entries) = (seen, n) :: tally value entries := by
        rw [tally, if_neg hseen]
      rcases ih with ⟨before, other, m, after, heq, hother, htally⟩ | ⟨hnone, htally⟩
      · refine .inl ⟨(seen, n) :: before, other, m, after, ?_, hother, ?_⟩
        · rw [heq, List.cons_append]
        · rw [hcons, htally, List.cons_append]
      · refine .inr ⟨List.forall_mem_cons.mpr ⟨hseen, hnone⟩, ?_⟩
        rw [hcons, htally, List.cons_append]

section Step

variable {cells : List Cell} {entries before after : List (Cell × Nat)} {seen value : Cell} {n : Nat}

theorem countP_append_singleton (seen : Cell) :
    ((cells ++ [value]).countP fun cell => seen == cell)
      = (cells.countP fun cell => seen == cell) + if (seen == value) = true then 1 else 0 := by
  rw [List.countP_append, List.countP_singleton]

/-- Of values apart only one is equal to a given one. -/
theorem not_beq_of_distinct {this entry : Cell × Nat}
    (h : ((before ++ this :: after).map Prod.fst).Pairwise fun a b => ¬(a == b) = true)
    (hthis : (this.1 == value) = true) (hentry : entry ∈ before ∨ entry ∈ after) :
    ¬(entry.1 == value) = true := by
  rw [List.pairwise_map, List.pairwise_append, List.pairwise_cons] at h
  obtain ⟨-, ⟨hfirst, -⟩, hcross⟩ := h
  intro hbeq
  have hsame : (entry.1 == this.1) = true := BEq.trans hbeq (BEq.symm hthis)
  rcases hentry with hin | hin
  · exact hcross entry hin this List.mem_cons_self hsame
  · exact hfirst entry hin (BEq.symm hsame)

/-- One more cell with a value that is there. -/
theorem IsTally.append_seen (h : IsTally cells (before ++ (seen, n) :: after))
    (hseen : (seen == value) = true) :
    IsTally (cells ++ [value]) (before ++ (seen, n + 1) :: after) := by
  -- the values stay what they are, so only the numbers need a look
  have hvalues : (before ++ (seen, n + 1) :: after).map Prod.fst
      = (before ++ (seen, n) :: after).map Prod.fst := by
    rw [List.map_append, List.map_append, List.map_cons, List.map_cons]
  refine ⟨?_, ?_, ?_, ?_⟩
  · rw [hvalues]
    exact h.distinct
  · rw [hvalues]
    intro other hother
    exact List.mem_append_left _ (h.occurs other hother)
  · rw [hvalues]
    intro cell hcell
    rcases List.mem_append.mp hcell with hold | hnew
    · exact h.covers cell hold
    · rw [List.mem_singleton.mp hnew]
      exact ⟨seen, by simp, hseen⟩
  · intro entry hentry
    rw [countP_append_singleton]
    rw [List.mem_append, List.mem_cons, or_left_comm] at hentry
    rcases hentry with hthis | hother
    · rw [hthis, if_pos hseen, ← h.counted (seen, n) (by simp)]
    · rw [if_neg (not_beq_of_distinct h.distinct hseen hother), Nat.add_zero]
      refine h.counted entry ?_
      rw [List.mem_append, List.mem_cons, or_left_comm]
      exact .inr hother

/-- One more cell with a value that is new. -/
theorem IsTally.append_new (h : IsTally cells entries)
    (hnone : ∀ seen ∈ entries.map Prod.fst, ¬(seen == value) = true) :
    IsTally (cells ++ [value]) (entries ++ [(value, 1)]) := by
  have hvalues : (entries ++ [(value, 1)]).map Prod.fst = entries.map Prod.fst ++ [value] := by
    rw [List.map_append, List.map_singleton]
  refine ⟨?_, ?_, ?_, ?_⟩
  · rw [hvalues, List.pairwise_append]
    refine ⟨h.distinct, List.pairwise_singleton _ _, ?_⟩
    intro a ha b hb
    rw [List.mem_singleton.mp hb]
    exact hnone a ha
  · rw [hvalues]
    intro other hother
    exact List.mem_append.mpr ((List.mem_append.mp hother).imp_left (h.occurs other))
  · rw [hvalues]
    intro cell hcell
    rcases List.mem_append.mp hcell with hold | hnew
    · obtain ⟨other, hother, hbeq⟩ := h.covers cell hold
      exact ⟨other, List.mem_append_left _ hother, hbeq⟩
    · rw [List.mem_singleton.mp hnew]
      exact ⟨value, List.mem_append_right _ List.mem_cons_self, Cell.beq_refl value⟩
  · intro entry hentry
    rw [countP_append_singleton]
    rcases List.mem_append.mp hentry with hold | hnew
    · rw [if_neg (hnone entry.1 (List.mem_map_of_mem hold)), Nat.add_zero]
      exact h.counted entry hold
    · -- the values cover the cells before, so none of these is equal to a new value
      have hzero : (cells.countP fun cell => value == cell) = 0 := by
        rw [List.countP_eq_zero]
        intro cell hcell heq
        obtain ⟨other, hother, hbeq⟩ := h.covers cell hcell
        exact hnone other hother (BEq.trans hbeq (BEq.symm heq))
      rw [List.mem_singleton.mp hnew, if_pos (Cell.beq_refl value), hzero]

/-- One more cell makes a tally of one cell more. -/
theorem IsTally.tally (h : IsTally cells entries) (value : Cell) :
    IsTally (cells ++ [value]) (CsvQuery.tally value entries) := by
  rcases tally_cases value entries with ⟨before, seen, n, after, heq, hseen, htally⟩ | ⟨hnone, htally⟩
  · rw [heq] at h
    rw [htally]
    exact h.append_seen hseen
  · rw [htally]
    exact h.append_new hnone

end Step

/-- Counting cells one after the other makes a tally of them. -/
theorem isTally_foldl (cells : List Cell) :
    IsTally cells (cells.foldl (fun entries cell => tally cell entries) []) := by
  induction cells using List.reverseRecOn with
  | nil => exact isTally_nil
  | append_singleton cells cell ih =>
    -- the count begins with the first cell, so the last one is the step
    rw [List.foldl_append]
    exact ih.tally cell

/-- The counts of a column are a tally of its cells. -/
theorem Table.isTally_counts {table : Table} {column : String} {position : Nat}
    (h : table.position column = some position) :
    IsTally (table.rows.map fun row => row.cell position) (table.counts column) := by
  unfold Table.counts
  rw [h]
  dsimp only
  rw [← List.foldl_map (f := fun row : Row => row.cell position)
    (g := fun entries cell => CsvQuery.tally cell entries)]
  exact isTally_foldl _

/-! ## §2. Tallies of equal cells -/

/-- Two cells are equal. -/
def Cell.Equal (a b : Cell) : Prop := (a == b) = true

instance : DecidableRel Cell.Equal := fun a b => inferInstanceAs (Decidable ((a == b) = true))

instance : IsTrans Cell Cell.Equal := ⟨fun _ _ _ => BEq.trans⟩

instance : Std.Symm Cell.Equal := ⟨fun _ _ => BEq.symm⟩

/-- Two entries have equal values and one number. -/
def SameEntry (a b : Cell × Nat) : Prop := Cell.Equal a.1 b.1 ∧ a.2 = b.2

/-- Entries with values apart can be paired off when each has its like on the other side. -/
theorem rel_of_sameEntry {entries entries' : List (Cell × Nat)}
    (hdistinct : (entries.map Prod.fst).Pairwise fun a b => ¬(a == b) = true)
    (hdistinct' : (entries'.map Prod.fst).Pairwise fun a b => ¬(a == b) = true)
    (hright : ∀ a ∈ entries, ∃ b ∈ entries', SameEntry a b)
    (hleft : ∀ b ∈ entries', ∃ a ∈ entries, SameEntry a b) :
    Multiset.Rel SameEntry entries entries' := by
  induction entries generalizing entries' with
  | nil =>
    cases entries' with
    | nil => exact .zero
    | cons b entries' =>
      obtain ⟨a, ha, -⟩ := hleft b List.mem_cons_self
      cases ha
  | cons a entries ih =>
    -- the first entry takes its like out of the other list, wherever that stands
    obtain ⟨b, hb, hab⟩ := hright a List.mem_cons_self
    obtain ⟨before, after, heq⟩ := List.append_of_mem hb
    subst heq
    have hperm : (before ++ b :: after).Perm (b :: (before ++ after)) := List.perm_middle
    rw [List.map_cons, List.pairwise_cons] at hdistinct
    obtain ⟨hfirst, hrest⟩ := hdistinct
    rw [Multiset.coe_eq_coe.mpr hperm]
    refine .cons hab (ih hrest ?_ ?_ ?_)
    · exact hdistinct'.sublist (((List.sublist_cons_self b after).append_left before).map Prod.fst)
    · intro c hc
      obtain ⟨d, hd, hcd⟩ := hright c (List.mem_cons_of_mem _ hc)
      rcases List.mem_cons.mp (hperm.mem_iff.mp hd) with hthis | hother
      · -- its like is not the one that is taken already, as the values are apart
        rw [hthis] at hcd
        exact absurd (BEq.trans hab.1 (BEq.symm hcd.1)) (hfirst c.1 (List.mem_map_of_mem hc))
      · exact ⟨d, hother, hcd⟩
    · intro d hd
      obtain ⟨c, hc, hcd⟩ := hleft d (hperm.mem_iff.mpr (List.mem_cons_of_mem _ hd))
      rcases List.mem_cons.mp hc with hthis | hother
      · rw [hthis] at hcd
        have hdb : (d.1 == b.1) = true := BEq.symm (BEq.trans (BEq.symm hab.1) hcd.1)
        exact absurd hdb (not_beq_of_distinct hdistinct' (BEq.refl b.1) (List.mem_append.mp hd))
      · exact ⟨c, hother, hcd⟩

/-- Equal cells are as many on both sides. -/
theorem countP_eq_of_rel {cells cells' : List Cell} (h : Multiset.Rel Cell.Equal cells cells')
    (value : Cell) :
    (cells.countP fun cell => value == cell) = cells'.countP fun cell => value == cell := by
  have hcount := h.countP_eq Cell.Equal value
  have hdecide : (fun cell => decide (Cell.Equal value cell)) = fun cell => value == cell := by
    funext cell
    exact Bool.decide_eq_true
  rw [Multiset.coe_countP, Multiset.coe_countP, hdecide] at hcount
  exact hcount

/-- Where cells are paired with equal ones, each has an equal one on the other side. -/
theorem exists_equal_of_rel {cells cells' : List Cell} (h : Multiset.Rel Cell.Equal cells cells')
    {cell : Cell} (hcell : cell ∈ cells) : ∃ cell' ∈ cells', Cell.Equal cell cell' := by
  obtain ⟨cell', hcell', heq⟩ := Multiset.exists_mem_of_rel_of_mem h (Multiset.mem_coe.mpr hcell)
  exact ⟨cell', Multiset.mem_coe.mp hcell', heq⟩

section Rel

variable {cells cells' : List Cell} {entries entries' : List (Cell × Nat)}

/-- An entry of one tally has its like in the other. -/
theorem IsTally.exists_sameEntry (h : IsTally cells entries) (h' : IsTally cells' entries')
    (hrel : Multiset.Rel Cell.Equal cells cells') {entry : Cell × Nat} (hentry : entry ∈ entries) :
    ∃ entry' ∈ entries', SameEntry entry entry' := by
  obtain ⟨cell, hcell, heq⟩ := exists_equal_of_rel hrel (h.occurs entry.1 (List.mem_map_of_mem hentry))
  obtain ⟨value, hvalue, heq'⟩ := h'.covers cell hcell
  obtain ⟨entry', hentry', rfl⟩ := List.mem_map.mp hvalue
  have hbeq : (entry.1 == entry'.1) = true := BEq.trans heq (BEq.symm heq')
  refine ⟨entry', hentry', hbeq, ?_⟩
  rw [h.counted entry hentry, h'.counted entry' hentry', countP_eq_of_rel hrel]
  congr 1
  funext cell
  exact BEq.congr_left hbeq

/-- Tallies of cells that are equal in some order have the same entries in some order. -/
theorem IsTally.rel (h : IsTally cells entries) (h' : IsTally cells' entries')
    (hrel : Multiset.Rel Cell.Equal cells cells') : Multiset.Rel SameEntry entries entries' := by
  have hrel' : Multiset.Rel Cell.Equal cells' cells := by
    rw [← Multiset.rel_flip]
    exact hrel.mono fun _ _ _ _ => BEq.symm
  refine rel_of_sameEntry h.distinct h'.distinct ?_ ?_
  · intro a ha
    exact h.exists_sameEntry h' hrel ha
  · intro b hb
    obtain ⟨a, ha, hba⟩ := h'.exists_sameEntry h hrel' hb
    exact ⟨a, ha, BEq.symm hba.1, hba.2.symm⟩

end Rel

end CsvQuery

/-
  CsvQuery.Proofs.Cell.Order — the order of cells and their equality.

  Two cells are equal exactly when they have one standing, so equality of cells is an equivalence and
  the order is total up to it.  What the joins and the counts need of the order is gathered here.
-/
import CsvQuery.Cell.Order

namespace CsvQuery

namespace Standing

/-- Standings compare as equal only if they are the same. -/
theorem compare_eq_iff {a b : Standing} : compare a b = .eq ↔ a = b := by
  show order a b = .eq ↔ a = b
  simp only [order, compareLex_eq_eq, compareOn, Std.LawfulEqOrd.compare_eq_iff_eq]
  constructor
  · intro h
    obtain ⟨hrank, hunits, hbytes⟩ := h
    cases a
    cases b
    rw [Standing.mk.injEq]
    exact ⟨hrank, hunits, hbytes⟩
  · intro h
    rw [h]
    exact ⟨rfl, rfl, rfl⟩

end Standing

namespace Cell

variable {a b c : Cell}

/-- Cells are equal when they compare as equal. -/
theorem beq_iff_compare : (a == b) = true ↔ compare a b = .eq := by
  show (compare a b == .eq) = true ↔ _
  exact beq_iff_eq

/-- Equal cells are those that share one standing. -/
theorem beq_iff_standing : (a == b) = true ↔ a.standing = b.standing :=
  beq_iff_compare.trans Standing.compare_eq_iff

instance : Std.LawfulBEqOrd Cell := ⟨beq_iff_compare.symm⟩

instance : EquivBEq Cell := inferInstance

theorem le_iff : a.le b = true ↔ (compare a b).isLE = true := Iff.rfl

/-- Equal cells may stand in either order. -/
theorem le_of_beq (h : (a == b) = true) : a.le b = true := by
  rw [le_iff, beq_iff_compare.mp h]
  rfl

/-- Cells that may stand in either order are equal. -/
theorem beq_of_le_of_le (hab : a.le b = true) (hba : b.le a = true) : (a == b) = true :=
  beq_iff_compare.mpr (Std.OrientedCmp.isLE_antisymm hab hba)

/-- Of two cells that differ, the one that may stand first is below the other. -/
theorem lt_of_le_of_not_beq (hab : a.le b = true) (hne : ¬(a == b) = true) :
    compare a b = .lt := by
  rw [beq_iff_compare] at hne
  rw [le_iff] at hab
  cases h : compare a b with
  | lt => rfl
  | eq => exact absurd h hne
  | gt => rw [h] at hab; cases hab

theorem not_beq_of_lt (h : compare a b = .lt) : ¬(a == b) = true := by
  rw [beq_iff_compare, h]
  intro heq
  cases heq

theorem le_trans (hab : a.le b = true) (hbc : b.le c = true) : a.le c = true :=
  Std.TransOrd.isLE_trans hab hbc

theorem le_total (a b : Cell) : (a.le b || b.le a) = true := by
  show ((compare a b).isLE || (compare b a).isLE) = true
  rw [Std.OrientedOrd.eq_swap (a := b)]
  cases compare a b <;> rfl

end Cell

end CsvQuery

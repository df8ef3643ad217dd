/-
  CsvQuery.Cell.Order — comparing cells.

  Absent cells come first, then numbers, then texts.  Numbers compare by their exact values whatever
  their form, with the infinities at the ends and not-a-number above them all; texts compare by their
  UTF-8 bytes.  A cell is compared through its `Standing`, a triple under lexicographic order, so the
  order is total and agrees with equality by construction, not-a-number and the two zeros included.
-/
import CsvQuery.Cell.Basic
import CsvQuery.Text.Utf8

namespace CsvQuery

/-! ## §1. Standings -/

/-- The place of a cell in the order of all cells. -/
structure Standing where
  /-- Which kind of value: absent, below all, exact, above all, not a number, text. -/
  rank : Nat
  /-- The exact value of a finite number, in units of `2 ^ -1074`. -/
  units : Int
  /-- The bytes of a text. -/
  bytes : List UInt8
  deriving DecidableEq

namespace Standing

/-- Standings compare by rank, then by value, then by bytes. -/
def order : Standing → Standing → Ordering :=
  compareLex (compareOn rank) (compareLex (compareOn units) (compareOn bytes))

instance : Ord Standing := ⟨order⟩

instance : Std.TransCmp order := by unfold order; infer_instance

instance : Std.TransOrd Standing := inferInstanceAs (Std.TransCmp order)

end Standing

/-! ## §2. The order of cells -/

/-- The place of a binary64 number among all cells. -/
def Binary64.standing : Binary64 → Standing
  | .infinite true => ⟨1, 0, []⟩
  | .finite negative x => ⟨2, signed negative x.units, []⟩
  | .infinite false => ⟨3, 0, []⟩
  | .nan => ⟨4, 0, []⟩

namespace Cell

/-- The place of a cell among all cells. -/
def standing : Cell → Standing
  | absent => ⟨0, 0, []⟩
  | int i => ⟨2, i.toInt * Magnitude.unitsPerOne, []⟩
  | float x => x.standing
  | text s => ⟨5, 0, utf8 s⟩

/-- Cells compare by their standings. -/
instance : Ord Cell := ⟨fun a b => compare a.standing b.standing⟩

instance : Std.TransOrd Cell where
  eq_swap {a b} := @Std.OrientedCmp.eq_swap Standing compare _ a.standing b.standing
  isLE_trans {a b c} := @Std.TransCmp.isLE_trans Standing compare _ a.standing b.standing c.standing

/-- Two cells are equal when neither comes before the other. -/
instance : BEq Cell := ⟨fun a b => compare a b == .eq⟩

/-- A cell is equal to itself, not-a-number included. -/
theorem beq_refl (a : Cell) : (a == a) = true := by
  have h : compare a a = .eq := Std.ReflCmp.compare_self
  change (compare a a == .eq) = true
  rw [h]
  rfl

/-- Whether one cell may stand before another in ascending order. -/
def le (a b : Cell) : Bool := (compare a b).isLE

end Cell

end CsvQuery

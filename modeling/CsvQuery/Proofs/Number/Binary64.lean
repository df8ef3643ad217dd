/-
  CsvQuery.Proofs.Number.Binary64 — words and units of binary64 numbers.

  A magnitude is named by its word and denotes a number of units.  Both name it faithfully: the units
  grow strictly with the word, because the significand fills its 53 bits from the first exponent on,
  so one binade ends where the next one starts.

  Main results:
    • `Magnitude.units_lt_units` — a greater word denotes a greater magnitude
    • `Magnitude.units_inj` — equal magnitudes have one word
    • `Binary64.toWord_inj` — the interchange form tells all numbers apart
-/
import Mathlib.Algebra.Group.Nat.Defs
import CsvQuery.Number.Binary64

namespace CsvQuery

/-! ## §1. Magnitudes -/

namespace Magnitude

/-- The exponent is one less than the exponent field, but zero for subnormal numbers too. -/
theorem exponent_eq (x : Magnitude) : x.exponent = x.word / 2 ^ 52 - 1 := by
  unfold exponent
  omega

/-- The significand is what the exponent leaves of the word. -/
theorem significand_eq (x : Magnitude) : x.significand = x.word - x.exponent * 2 ^ 52 := by
  unfold significand
  omega

theorem units_eq (x : Magnitude) : x.units = x.significand * 2 ^ x.exponent :=
  Nat.shiftLeft_eq _ _

theorem unitsPerOne_pos : 0 < unitsPerOne := by
  unfold unitsPerOne
  rw [Nat.one_shiftLeft]
  exact Nat.two_pow_pos 1074

/-- A significand has at most 53 bits. -/
theorem significand_lt (x : Magnitude) : x.significand < 2 ^ 53 := by
  have hexp := x.exponent_eq
  have hsig := x.significand_eq
  omega

/-- Outside the first exponent the leading bit of the significand is set. -/
theorem le_significand {x : Magnitude} (h : 0 < x.exponent) : 2 ^ 52 ≤ x.significand := by
  have hexp := x.exponent_eq
  have hsig := x.significand_eq
  omega

/-- A word is put together again from exponent and significand. -/
theorem word_eq (x : Magnitude) : x.word = x.exponent * 2 ^ 52 + x.significand := by
  have hexp := x.exponent_eq
  have hsig := x.significand_eq
  omega

/-- A lower exponent means fewer units, whatever the significands are. -/
theorem units_lt_of_exponent_lt {x y : Magnitude} (h : x.exponent < y.exponent) :
    x.units < y.units := by
  have hpow : 2 ^ (x.exponent + 1) ≤ 2 ^ y.exponent := Nat.pow_le_pow_right (by omega) h
  calc x.units = x.significand * 2 ^ x.exponent := x.units_eq
    _ < 2 ^ 53 * 2 ^ x.exponent :=
        Nat.mul_lt_mul_of_pos_right x.significand_lt (Nat.two_pow_pos _)
    _ = 2 ^ 52 * 2 ^ (x.exponent + 1) := by rw [Nat.pow_succ 2 x.exponent]; omega
    _ ≤ y.significand * 2 ^ y.exponent :=
        Nat.mul_le_mul (le_significand (by omega)) hpow
    _ = y.units := y.units_eq.symm

/-- A greater word denotes a greater magnitude. -/
theorem units_lt_units {x y : Magnitude} (h : x.word < y.word) : x.units < y.units := by
  rcases Nat.lt_trichotomy x.exponent y.exponent with hlt | heq | hgt
  · exact units_lt_of_exponent_lt hlt
  · -- in one binade the words differ by as much as the significands
    have hx := x.word_eq
    have hy := y.word_eq
    rw [heq] at hx
    rw [units_eq, units_eq, heq]
    exact Nat.mul_lt_mul_of_pos_right (by omega) (Nat.two_pow_pos _)
  · -- a greater exponent would make the word greater as well
    have hx := x.word_eq
    have hy := y.word_eq
    have hsig := y.significand_lt
    have := le_significand (x := x) (by omega)
    omega

/-- Equal magnitudes have one word. -/
theorem units_inj {x y : Magnitude} : x.units = y.units ↔ x = y := by
  constructor
  · intro h
    rcases Nat.lt_trichotomy x.word y.word with hlt | heq | hgt
    · exact absurd h (Nat.ne_of_lt (units_lt_units hlt))
    · cases x
      cases y
      simpa using heq
    · exact absurd h (Nat.ne_of_gt (units_lt_units hgt))
  · intro h
    rw [h]

end Magnitude

/-! ## §2. Signed numbers -/

/-- Signed numbers other than zero are told apart by their signs and absolute values. -/
theorem signed_inj {a b : Bool} {m n : Nat} (hm : m ≠ 0) :
    signed a m = signed b n ↔ a = b ∧ m = n := by
  cases a <;> cases b <;> simp [signed] <;> omega

namespace Binary64

theorem toWord_lt (x : Binary64) : x.toWord < 2 ^ 64 := by
  cases x with
  | finite negative x =>
    have := x.word_lt
    cases negative <;> simp [toWord] <;> omega
  | infinite negative => cases negative <;> simp [toWord]
  | nan => simp [toWord]

/-- The interchange form tells all numbers apart. -/
theorem toWord_inj {x y : Binary64} : x.toWord = y.toWord ↔ x = y := by
  constructor
  · intro h
    -- the sign is the top bit, and the words of infinity and of no number are above all finite ones
    cases x with
    | finite a x =>
      have hx := x.word_lt
      cases y with
      | finite b y =>
        have hy := y.word_lt
        cases x
        cases y
        cases a <;> cases b <;> simp [toWord] at h hx hy ⊢ <;> omega
      | infinite b => cases a <;> cases b <;> simp [toWord] at h <;> omega
      | nan => cases a <;> simp [toWord] at h <;> omega
    | infinite a =>
      cases y with
      | finite b y =>
        have hy := y.word_lt
        cases a <;> cases b <;> simp [toWord] at h <;> omega
      | infinite b => cases a <;> cases b <;> simp [toWord] at h ⊢
      | nan => cases a <;> simp [toWord] at h
    | nan =>
      cases y with
      | finite b y =>
        have hy := y.word_lt
        cases b <;> simp [toWord] at h <;> omega
      | infinite b => cases b <;> simp [toWord] at h
      | nan => rfl
  · intro h
    rw [h]

end Binary64

end CsvQuery

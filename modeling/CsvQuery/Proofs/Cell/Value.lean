/-
  CsvQuery.Proofs.Cell.Value — cells are ordered by the exact values of their numbers.

  An integer is worth itself.  A finite binary64 number is worth the fraction that the fields of its word
  denote, sign, exponent and significand, and an infinity is worth one.  Comparing kind by kind orders
  numbers by what they are worth, although an integer may be rounded on the way, and the order is total
  and agrees with equality on all cells, not-a-number included.

  Main results:
    • `Magnitude.value_eq` — the fields of a word denote its units
    • `Denotes.compare_eq_lt_iff`, `Denotes.compare_eq_eq_iff` — numbers compare by their values
    • `Cell.isExactOrder_compareKinds` — the laws of comparing, all together
-/
import Mathlib.Algebra.Order.Field.Basic
import Mathlib.Algebra.Order.Field.Rat
import Mathlib.Order.WithBotTop
import CsvQuery.Proofs.Cell.Compare

namespace CsvQuery

/-! ## §1. What numbers are worth -/

/-- A rational number or an infinity. -/
abbrev ExactValue := WithBotTop ℚ

/-- The exact value of a magnitude, by the exponent field and the fraction field of its word. -/
def Magnitude.value (x : Magnitude) : ℚ :=
  if x.word / 2 ^ 52 = 0 then (x.word % 2 ^ 52 : ℕ) * 2 ^ (-1074 : ℤ)
  else (2 ^ 52 + x.word % 2 ^ 52 : ℕ) * 2 ^ ((x.word / 2 ^ 52 : ℕ) - 1075 : ℤ)

/-- The exact value of a binary64 number; not-a-number has none. -/
def Binary64.value? : Binary64 → Option ExactValue
  | .finite negative x => some ↑(if negative then -x.value else x.value)
  | .infinite true => some ⊥
  | .infinite false => some ⊤
  | .nan => none

/-- The exact value of a cell that holds a number. -/
def Cell.value? : Cell → Option ExactValue
  | .int i => some ↑(i.toInt : ℚ)
  | .float x => x.value?
  | .absent => none
  | .text _ => none

/-- Whether a word of 64 bits encodes not-a-number: all ones in the exponent field and a fraction. -/
def Binary64.IsNanWord (word : Nat) : Prop := 2047 <<< 52 < word % (1 <<< 63)

/-! ## §2. Values and units -/

/-- The fields of a word denote its units. -/
theorem Magnitude.value_eq (x : Magnitude) : x.value = x.units * (2 : ℚ) ^ (-1074 : ℤ) := by
  have hexp := x.exponent_eq
  have hsig := x.significand_eq
  have hunits := x.units_eq
  unfold value
  split
  next hfield =>
    -- the subnormal numbers
    have hexponent : x.exponent = 0 := by omega
    have hsignificand : x.significand = x.word % 2 ^ 52 := by omega
    rw [hunits, hexponent, hsignificand, Nat.pow_zero, Nat.mul_one]
  next hfield =>
    have hsignificand : x.significand = 2 ^ 52 + x.word % 2 ^ 52 := by omega
    have hexponent : ((x.word / 2 ^ 52 : ℕ) - 1075 : ℤ) = x.exponent + (-1074 : ℤ) := by omega
    rw [hunits, ← hsignificand, hexponent, zpow_add₀ two_ne_zero, zpow_natCast, Nat.cast_mul,
      Nat.cast_pow, Nat.cast_ofNat, mul_assoc]

/-- One is `2 ^ 1074` units of `2 ^ -1074`. -/
theorem unitsPerOne_mul : (Magnitude.unitsPerOne : ℚ) * 2 ^ (-1074 : ℤ) = 1 := by
  have hpow (n : ℕ) : ((2 ^ n : ℕ) : ℚ) * 2 ^ (-(n : ℤ)) = 1 := by
    rw [Nat.cast_pow, Nat.cast_ofNat, zpow_neg, zpow_natCast, mul_inv_cancel₀ (pow_ne_zero n two_ne_zero)]
  rw [Magnitude.unitsPerOne_eq]
  exact hpow 1074

/-- Only what is not a number has no value. -/
theorem Binary64.value?_eq_none_iff {x : Binary64} : x.value? = none ↔ x = .nan := by
  cases x with
  | finite negative x => exact iff_of_false nofun nofun
  | infinite negative => cases negative <;> exact iff_of_false nofun nofun
  | nan => exact iff_of_true rfl rfl

/-- What the standing of a number is worth. -/
inductive Standing.Denotes : Standing → ExactValue → Prop where
  | below : Denotes ⟨1, 0, []⟩ ⊥
  | exact (units : Int) : Denotes ⟨2, units, []⟩ ↑(units * 2 ^ (-1074 : ℤ) : ℚ)
  | above : Denotes ⟨3, 0, []⟩ ⊤

/-- A number is worth what its standing is. -/
theorem Cell.denotes_of_value? {a : Cell} {v : ExactValue} (h : a.value? = some v) :
    a.standing.Denotes v := by
  cases a with
  | absent => cases h
  | int i =>
    injection h with h
    have hvalue : (i.toInt : ℚ)
        = ((i.toInt * Magnitude.unitsPerOne : Int) : ℚ) * 2 ^ (-1074 : ℤ) := by
      rw [Int.cast_mul, Int.cast_natCast, mul_assoc, unitsPerOne_mul, mul_one]
    rw [← h, hvalue]
    exact .exact _
  | float x =>
    cases x with
    | finite negative x =>
      injection h with h
      have hvalue : (if negative then -x.value else x.value)
          = (signed negative x.units : ℚ) * 2 ^ (-1074 : ℤ) := by
        rw [x.value_eq]
        cases negative with
        | true => simp [signed]
        | false => simp [signed]
      rw [← h, hvalue]
      exact .exact _
    | infinite negative =>
      cases negative with
      | true =>
        injection h with h
        rw [← h]
        exact .below
      | false =>
        injection h with h
        rw [← h]
        exact .above
    | nan => cases h
  | text s => cases h

/-- Finite values are ordered as their units. -/
theorem units_lt_units_iff {m n : Int} :
    (↑(m * 2 ^ (-1074 : ℤ) : ℚ) : ExactValue) < ↑(n * 2 ^ (-1074 : ℤ) : ℚ) ↔ m < n := by
  rw [WithBotTop.coe_lt_coe, mul_lt_mul_iff_left₀ (zpow_pos two_pos _),
    Int.cast_lt]

namespace Standing.Denotes

variable {s t : Standing} {u v : ExactValue}

theorem rank_lt (hs : s.Denotes u) : s.rank < 4 := by
  cases hs with
  | below => exact Nat.lt_add_of_pos_right (Nat.succ_pos 2)
  | exact n => exact Nat.lt_add_of_pos_right (Nat.succ_pos 1)
  | above => exact Nat.lt_succ_self 3

/-- Of two numbers the one of lower rank is worth less. -/
theorem lt_of_rank_lt (hs : s.Denotes u) (ht : t.Denotes v) (h : s.rank < t.rank) : u < v := by
  cases hs with
  | below =>
    cases ht with
    | below => cases Nat.lt_irrefl _ h
    | exact n => exact WithBot.bot_lt_coe _
    | above => exact WithBot.bot_lt_coe _
  | exact m =>
    cases ht with
    | below => cases Nat.lt_asymm h Nat.one_lt_two
    | exact n => cases Nat.lt_irrefl _ h
    | above => exact WithBot.coe_lt_coe.mpr (WithTop.coe_lt_top _)
  | above =>
    cases ht with
    | below => cases Nat.lt_asymm h (Nat.lt_succ_of_lt Nat.one_lt_two)
    | exact n => cases Nat.lt_asymm h (Nat.lt_succ_self 2)
    | above => cases Nat.lt_irrefl _ h

/-- Standings of numbers are ordered as what they are worth. -/
theorem compare_eq_lt_iff (hs : s.Denotes u) (ht : t.Denotes v) : compare s t = .lt ↔ u < v := by
  rcases Nat.lt_trichotomy s.rank t.rank with hlt | heq | hgt
  · exact iff_of_true (compare_of_rank_lt hlt) (hs.lt_of_rank_lt ht hlt)
  · cases hs with
    | below =>
      cases ht with
      | below => simp
      | exact n => cases heq
      | above => cases heq
    | exact m =>
      cases ht with
      | below => cases heq
      | exact n => rw [compare_units, Int.compare_eq_lt, units_lt_units_iff]
      | above => cases heq
    | above =>
      cases ht with
      | below => cases heq
      | exact n => cases heq
      | above => simp
  · have hgreater := compare_of_rank_gt hgt
    have hvalue := ht.lt_of_rank_lt hs hgt
    rw [hgreater]
    exact iff_of_false (fun h => by cases h) (lt_asymm hvalue)

/-- Numbers that are worth the same have one standing. -/
theorem compare_eq_eq_iff (hs : s.Denotes u) (ht : t.Denotes v) : compare s t = .eq ↔ u = v := by
  have hlt := compare_eq_lt_iff hs ht
  have hgt := compare_eq_lt_iff ht hs
  rw [← Std.OrientedCmp.gt_iff_lt] at hgt
  cases h : compare s t with
  | lt => simpa [h] using (hlt.mp h).ne
  | eq =>
    rw [h] at hlt hgt
    exact iff_of_true rfl (le_antisymm (not_lt.mp fun hu => by cases hgt.mpr hu)
      (not_lt.mp fun hu => by cases hlt.mpr hu))
  | gt => simpa [h] using (hgt.mp h).ne'

end Standing.Denotes

/-! ## §3. The laws of comparing -/

/-- Lists of bytes compare in dictionary order. -/
theorem compare_bytes_eq_lt_iff {s t : List UInt8} : compare s t = .lt ↔ s < t := by
  show List.compareLex compare s t = .lt ↔ s < t
  induction s generalizing t with
  | nil => cases t <;> simp [List.compareLex]
  | cons a s ih =>
    cases t with
    | nil => simp [List.compareLex]
    | cons b t =>
      rw [List.compareLex_cons_cons, List.cons_lt_cons_iff, Ordering.then_eq_lt, ih,
        Std.LawfulLTCmp.eq_lt_iff_lt, Std.LawfulEqCmp.compare_eq_iff_eq]

/-- All words with ones in the exponent field and a fraction are read as the same. -/
theorem Binary64.ofWord_of_isNanWord {word : Nat} (h : IsNanWord word) : ofWord word = .nan := by
  unfold IsNanWord at h
  unfold ofWord
  dsimp only
  rw [dif_neg (by omega), if_neg (by omega)]

namespace Cell

/-- The laws of an order of cells: a total order up to equality, in which absent cells come before numbers
and numbers before texts, numbers by their exact values and texts by their bytes. -/
structure IsExactOrder (order : Cell → Cell → Ordering) : Prop where
  /-- The other way round, the comparison is reversed. -/
  swap (a b : Cell) : order b a = (order a b).swap
  refl (a : Cell) : order a a = .eq
  trans (a b c : Cell) : (order a b).isLE = true → (order b c).isLE = true →
    (order a c).isLE = true
  /-- Equality is comparing as equal. -/
  beq_iff (a b : Cell) : (a == b) = true ↔ order a b = .eq
  absent_lt (a : Cell) : a.isNumeric = true → order .absent a = .lt
  lt_text (a : Cell) (s : String) : a.isNumeric = true → order a (.text s) = .lt
  absent_lt_text (s : String) : order .absent (.text s) = .lt
  /-- Texts are ordered by their bytes in UTF-8. -/
  text_lt_text (s t : String) : order (.text s) (.text t) = .lt ↔ utf8 s < utf8 t
  text_eq_text (s t : String) : order (.text s) (.text t) = .eq ↔ s = t
  /-- Numbers are ordered by their exact values, whatever their forms. -/
  lt_iff_value (a b : Cell) (u v : ExactValue) : a.value? = some u → b.value? = some v →
    (order a b = .lt ↔ u < v)
  eq_iff_value (a b : Cell) (u v : ExactValue) : a.value? = some u → b.value? = some v →
    (order a b = .eq ↔ u = v)
  /-- All words that are not a number are equal. -/
  nan_eq_nan (v w : Nat) : Binary64.IsNanWord v → Binary64.IsNanWord w →
    order (.float (.ofWord v)) (.float (.ofWord w)) = .eq
  /-- A number with a value is below them. -/
  lt_nan (a : Cell) (u : ExactValue) (w : Nat) : a.value? = some u → Binary64.IsNanWord w →
    order a (.float (.ofWord w)) = .lt

/-- Numbers stand behind absent cells and before texts. -/
theorem rank_standing_of_isNumeric {a : Cell} (h : a.isNumeric = true) :
    0 < a.standing.rank ∧ a.standing.rank < 5 := by
  cases a with
  | absent => cases h
  | int i => exact ⟨Nat.succ_pos 1, Nat.lt_add_of_pos_right (Nat.succ_pos 2)⟩
  | float x => exact rank_standing_float x
  | text s => cases h

theorem compare_text_eq_lt_iff {s t : String} :
    compare (text s) (text t) = .lt ↔ utf8 s < utf8 t := by
  show compare (⟨5, 0, utf8 s⟩ : Standing) ⟨5, 0, utf8 t⟩ = .lt ↔ _
  rw [Standing.compare_bytes, compare_bytes_eq_lt_iff]

theorem compare_text_eq_eq_iff {s t : String} : compare (text s) (text t) = .eq ↔ s = t := by
  show compare (⟨5, 0, utf8 s⟩ : Standing) ⟨5, 0, utf8 t⟩ = .eq ↔ _
  rw [Standing.compare_bytes, Std.LawfulEqCmp.compare_eq_iff_eq, utf8_inj]

theorem compare_nanWords {v w : Nat} (hv : Binary64.IsNanWord v) (hw : Binary64.IsNanWord w) :
    compare (float (.ofWord v)) (float (.ofWord w)) = .eq := by
  rw [Binary64.ofWord_of_isNanWord hv, Binary64.ofWord_of_isNanWord hw]
  rfl

/-- Whatever has a value is below what is not a number. -/
theorem compare_nanWord {a : Cell} {u : ExactValue} {w : Nat} (ha : a.value? = some u)
    (hw : Binary64.IsNanWord w) : compare a (float (.ofWord w)) = .lt := by
  rw [Binary64.ofWord_of_isNanWord hw]
  exact Standing.compare_of_rank_lt (denotes_of_value? ha).rank_lt

/-- Comparing kind by kind obeys the laws, and so does the order of standings, which is the same. -/
theorem isExactOrder_compareKinds :
    IsExactOrder compareKinds ∧ ∀ a b : Cell, a.compareKinds b = compare a b := by
  refine ⟨?_, compareKinds_eq_compare⟩
  have hkinds : compareKinds = compare := by
    funext a b
    exact compareKinds_eq_compare a b
  rw [hkinds]
  exact {
    swap := fun a b => Std.OrientedCmp.eq_swap
    refl := fun a => Std.ReflCmp.compare_self
    trans := fun a b c => Std.TransCmp.isLE_trans
    beq_iff := fun a b => beq_iff_compare
    absent_lt := fun a h => Standing.compare_of_rank_lt (rank_standing_of_isNumeric h).1
    lt_text := fun a s h => Standing.compare_of_rank_lt (rank_standing_of_isNumeric h).2
    absent_lt_text := fun s => rfl
    text_lt_text := fun s t => compare_text_eq_lt_iff
    text_eq_text := fun s t => compare_text_eq_eq_iff
    lt_iff_value := fun a b u v ha hb =>
      (denotes_of_value? ha).compare_eq_lt_iff (denotes_of_value? hb)
    eq_iff_value := fun a b u v ha hb =>
      (denotes_of_value? ha).compare_eq_eq_iff (denotes_of_value? hb)
    nan_eq_nan := fun v w hv hw => compare_nanWords hv hw
    lt_nan := fun a u w ha hw => compare_nanWord ha hw }

/-- An integer that rounding would take for `2 ^ 53` is still above it. -/
example : (int 9007199254740993).compareKinds (float (.ofWord 0x4340000000000000)) = .gt := by
  decide +kernel

end Cell

end CsvQuery

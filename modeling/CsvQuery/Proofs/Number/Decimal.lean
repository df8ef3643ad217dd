/-
  CsvQuery.Proofs.Number.Decimal — decimals as quotients, and numerals that denote them.

  A decimal is rounded as the quotient that it is: what is settled early, by the sizes of the numbers
  alone, rounds to the same.  A text of digits, or of digits around a point, is a numeral, and the
  text that a decimal is written as denotes a decimal of the same value.

  Main results:
    • `Decimal.nearest?_eq_quotient` — rounding a decimal is rounding its quotient
    • `Numeral.ofText?_digits`, `Numeral.ofText?_point` — the numerals without an exponent
    • `Numeral.nearest?_positional` — a written decimal is read with the value it has
-/
import Mathlib.Data.List.TakeWhile
import CsvQuery.Number.Decimal
import CsvQuery.Proofs.Number.Digits
import CsvQuery.Proofs.Number.Rounding

namespace CsvQuery

/-! ## §1. Decimals as quotients -/

namespace Decimal

/-- The decimal as a numerator and a denominator. -/
def quotient (d : Decimal) : Nat × Nat :=
  match d.place with
  | .ofNat k => (d.coefficient * 10 ^ k, 1)
  | .negSucc k => (d.coefficient, 10 ^ (k + 1))

theorem two_pow_le_ten_pow (k : Nat) : 2 ^ (3 * k) ≤ 10 ^ k := by
  rw [Nat.pow_mul]
  exact Nat.pow_le_pow_left (by decide) k

/-- A decimal that is too great by its size alone has no nearest magnitude. -/
theorem nearest?_eq_none_of_size {c k : Nat} (hc : c ≠ 0) (h : 1024 ≤ c.log2 + 3 * k) :
    Magnitude.nearest? (c * 10 ^ k) 1 = none := by
  apply Magnitude.nearest?_eq_none_of_le h (by decide)
  calc 1 * 2 ^ (c.log2 + 3 * k) = 2 ^ c.log2 * 2 ^ (3 * k) := by rw [Nat.one_mul, Nat.pow_add]
    _ ≤ c * 10 ^ k := Nat.mul_le_mul (Nat.log2_self_le hc) (two_pow_le_ten_pow k)

/-- A decimal that is too small by its size alone is nearest to zero. -/
theorem nearest?_eq_zero_of_size {c k : Nat} (h : c.log2 + 1076 ≤ 3 * k) :
    Magnitude.nearest? c (10 ^ k) = some .zero := by
  apply Magnitude.nearest?_eq_zero_of_lt (e := 3 * k - (c.log2 + 1)) (by omega)
  calc c * 2 ^ (3 * k - (c.log2 + 1))
      < 2 ^ (c.log2 + 1) * 2 ^ (3 * k - (c.log2 + 1)) :=
        Nat.mul_lt_mul_of_pos_right Nat.lt_log2_self (Nat.two_pow_pos _)
    _ = 2 ^ (3 * k) := by rw [← Nat.pow_add, Nat.add_sub_cancel' (by omega)]
    _ ≤ 10 ^ k := two_pow_le_ten_pow k

theorem nearest?_zero (den : Nat) (hden : 0 < den) : Magnitude.nearest? 0 den = some .zero :=
  Magnitude.nearest?_of_eq_units hden (by rw [Nat.zero_mul]; exact (Nat.zero_mul den).symm)

/-- Rounding a decimal is rounding its quotient. -/
theorem nearest?_eq_quotient (d : Decimal) :
    d.nearest? = Magnitude.nearest? d.quotient.1 d.quotient.2 := by
  obtain ⟨c, place⟩ := d
  unfold nearest? quotient
  by_cases hc : c = 0
  · -- zero has no size to be settled by
    subst hc
    cases place with
    | ofNat k =>
      show some Magnitude.zero = Magnitude.nearest? (0 * 10 ^ k) 1
      rw [Nat.zero_mul, nearest?_zero 1 (by decide)]
    | negSucc k =>
      exact (nearest?_zero _ (Nat.pow_pos (by decide))).symm
  · rw [if_neg hc]
    cases place with
    | ofNat k =>
      show (if 1024 ≤ c.log2 + 3 * k then none else Magnitude.nearest? (c * 10 ^ k) 1) = _
      split
      next h => exact (nearest?_eq_none_of_size hc h).symm
      next => rfl
    | negSucc k =>
      show (if c.log2 + 1076 ≤ 3 * (k + 1) then some .zero
        else Magnitude.nearest? c (10 ^ (k + 1))) = _
      split
      next h => exact (nearest?_eq_zero_of_size h).symm
      next => rfl

end Decimal

/-! ## §2. Numerals without an exponent -/

namespace Numeral

/-- Digits alone are a numeral. -/
theorem ofText?_digits (negative : Bool) {whole : List Char} (hne : whole ≠ [])
    (hwhole : ∀ c ∈ whole, c.isDigit = true) :
    ofText? (withSign negative whole) = some ⟨negative, whole, [], 0⟩ := by
  unfold ofText?
  rw [splitSign_withSign negative (exists_isDigit_cons hne hwhole)]
  simp [List.takeWhile_eq_self_iff.mpr hwhole, List.dropWhile_eq_nil_iff.mpr hwhole, hne,
    splitFraction, exponent?]

/-- Digits around a point are a numeral. -/
theorem ofText?_point (negative : Bool) {whole fraction : List Char} (hne : whole ≠ [])
    (hwhole : ∀ c ∈ whole, c.isDigit = true) (hfraction : ∀ c ∈ fraction, c.isDigit = true) :
    ofText? (withSign negative (whole ++ '.' :: fraction))
      = some ⟨negative, whole, fraction, 0⟩ := by
  obtain ⟨c, rest, hcons, hdigit⟩ := exists_isDigit_cons hne hwhole
  have hfirst : ∃ c rest, whole ++ '.' :: fraction = c :: rest ∧ c.isDigit = true :=
    ⟨c, rest ++ '.' :: fraction, by rw [hcons]; rfl, hdigit⟩
  have htake : (whole ++ '.' :: fraction).takeWhile Char.isDigit = whole := by
    rw [List.takeWhile_append_of_pos hwhole, List.takeWhile_cons_of_neg (by decide),
      List.append_nil]
  have hdrop : (whole ++ '.' :: fraction).dropWhile Char.isDigit = '.' :: fraction := by
    rw [List.dropWhile_append_of_pos hwhole, List.dropWhile_cons_of_neg (by decide)]
  unfold ofText?
  rw [splitSign_withSign negative hfirst]
  simp [htake, hdrop, hne, splitFraction, List.takeWhile_eq_self_iff.mpr hfraction,
    List.dropWhile_eq_nil_iff.mpr hfraction, exponent?]

/-- Digits denote a decimal with nothing after the point. -/
theorem nearest?_digits (negative : Bool) (whole : List Char) :
    nearest? ⟨negative, whole, [], 0⟩
      = (Magnitude.nearest? (digitsValue whole) 1).map (.finite negative) := by
  unfold nearest? decimal
  rw [Decimal.nearest?_eq_quotient, List.append_nil]
  show (Magnitude.nearest? (digitsValue whole * 10 ^ 0) 1).map _ = _
  rw [Nat.pow_zero, Nat.mul_one]

/-! ## §3. Written decimals -/

/-- How a decimal with digits after the point is written. -/
theorem positional_negSucc (c k : Nat) :
    ∃ whole fraction, Decimal.positional ⟨c, .negSucc k⟩ = whole ++ '.' :: fraction ∧
      whole ≠ [] ∧ fraction.length = k + 1 ∧ digitsValue (whole ++ fraction) = c ∧
      (∀ d ∈ whole, d.isDigit = true) ∧ ∀ d ∈ fraction, d.isDigit = true := by
  -- at least one digit is left before the point, as the zeros in front make up for those that lack
  let padded := List.replicate (k + 2 - (Nat.toDigits 10 c).length) '0' ++ Nat.toDigits 10 c
  have hlength : k + 2 ≤ padded.length := by
    show k + 2 ≤ (List.replicate _ '0' ++ Nat.toDigits 10 c).length
    rw [List.length_append, List.length_replicate]
    omega
  have hdigits : ∀ d ∈ padded, d.isDigit = true := by
    intro d hd
    rcases List.mem_append.mp hd with hzero | hdigit
    · exact isDigit_replicate_zero _ d hzero
    · exact isDigit_toDigits c d hdigit
  refine ⟨padded.take (padded.length - (k + 1)), padded.drop (padded.length - (k + 1)), rfl,
    ?_, ?_, ?_, fun d hd => hdigits d (List.mem_of_mem_take hd),
    fun d hd => hdigits d (List.mem_of_mem_drop hd)⟩
  · intro hnil
    have := congrArg List.length hnil
    rw [List.length_take, List.length_nil] at this
    omega
  · rw [List.length_drop]
    omega
  · rw [List.take_append_drop, digitsValue_zeros_append, digitsValue_toDigits]

/-- A written decimal is a numeral that denotes a decimal of its value. -/
theorem nearest?_positional (negative : Bool) (d : Decimal) :
    (ofText? (withSign negative d.positional)).bind nearest?
      = d.nearest?.map (.finite negative) := by
  obtain ⟨c, place⟩ := d
  cases place with
  | ofNat k =>
    show (ofText? (withSign negative (Nat.toDigits 10 c ++ List.replicate k '0'))).bind nearest? = _
    rw [ofText?_digits negative (by simp) (isDigit_toDigits_append_zeros c k), Option.bind_some, nearest?_digits,
      digitsValue_toDigits_append_zeros, Decimal.nearest?_eq_quotient]
    rfl
  | negSucc k =>
    obtain ⟨whole, fraction, htext, hne, hlength, hvalue, hwhole, hfraction⟩ := positional_negSucc c k
    rw [htext, ofText?_point negative hne hwhole hfraction, Option.bind_some]
    unfold nearest? decimal
    rw [hvalue, hlength]
    rfl

end Numeral

end CsvQuery

/-
  CsvQuery.Proofs.Number.Rounding — what the magnitude nearest to a quotient is.

  A quotient is rounded to a whole number of units of its own binade.  The word that rounding builds
  always names that number of units, a carry into the next binade included, so everything that is
  said of rounding here is said of units.

  Main results:
    • `Magnitude.units_of_nearest?` — the units of the nearest magnitude, by one rounded quotient
    • `Magnitude.nearest?_of_eq_units` — a quotient that is a magnitude is its own nearest one
    • `Magnitude.nearest?_eq_none_of_le`, `Magnitude.nearest?_eq_zero_of_lt` — what is too great, and
      what is too small
-/
import CsvQuery.Number.Rounding
import CsvQuery.Proofs.Number.Binary64

namespace CsvQuery

/-! ## §1. Rounded quotients -/

/-- What is whole is not rounded. -/
theorem roundHalfEven_mul_self {den : Nat} (hden : 0 < den) (n : Nat) :
    roundHalfEven (n * den) den = n := by
  unfold roundHalfEven
  rw [Nat.mul_div_cancel n hden, Nat.mul_mod_left, Nat.mul_zero]
  exact if_pos hden

theorem div_le_roundHalfEven (num den : Nat) : num / den ≤ roundHalfEven num den := by
  unfold roundHalfEven
  dsimp only
  split
  · exact Nat.le_refl _
  · split <;> omega

theorem roundHalfEven_le (num den : Nat) : roundHalfEven num den ≤ num / den + 1 := by
  unfold roundHalfEven
  dsimp only
  split
  · omega
  · split <;> omega

/-- Less than a half is rounded down to zero. -/
theorem roundHalfEven_eq_zero {num den : Nat} (h : 2 * num < den) : roundHalfEven num den = 0 := by
  have hlt : num < den := by omega
  unfold roundHalfEven
  rw [Nat.mod_eq_of_lt hlt, Nat.div_eq_of_lt hlt]
  exact if_pos h

namespace Magnitude

variable {x : Magnitude} {num den : Nat}

/-! ## §2. Words and units -/

theorem unitsPerOne_eq : unitsPerOne = 2 ^ 1074 := by
  have hshift (n : Nat) : 1 <<< n = 2 ^ n := Nat.one_shiftLeft n
  exact hshift 1074

theorem unitsPerOne_dvd_two_pow {n : Nat} (h : 1074 ≤ n) : unitsPerOne ∣ 2 ^ n := by
  have hpow (m : Nat) (hm : m ≤ n) : 2 ^ m ∣ 2 ^ n := Nat.pow_dvd_pow 2 hm
  rw [unitsPerOne_eq]
  exact hpow 1074 h

theorem two_pow_le_unitsPerOne {n : Nat} (h : n ≤ 1074) : 2 ^ n ≤ unitsPerOne := by
  have hpow (m : Nat) (hm : n ≤ m) : 2 ^ n ≤ 2 ^ m := Nat.pow_le_pow_right (by omega) hm
  rw [unitsPerOne_eq]
  exact hpow 1074 h

theorem two_mul_unitsPerOne_le {n : Nat} (h : 1074 < n) : 2 * unitsPerOne ≤ 2 ^ n := by
  have hle : unitsPerOne ≤ 2 ^ (n - 1) :=
    Nat.le_of_dvd (Nat.two_pow_pos _) (unitsPerOne_dvd_two_pow (by omega))
  have hsucc : 2 ^ (n - 1) * 2 = 2 ^ n := by
    rw [← Nat.pow_succ, Nat.succ_eq_add_one, Nat.sub_add_cancel (by omega)]
  omega

/-- A word is an exponent and a significand side by side, also where the significand has one bit too
many and carries. -/
theorem units_of_word_eq {e m : Nat} (hword : x.word = e * 2 ^ 52 + m) (hm : m ≤ 2 ^ 53)
    (he : e = 0 ∨ 2 ^ 52 ≤ m) : x.units = m * 2 ^ e := by
  have hexp := x.exponent_eq
  have hsig := x.significand_eq
  rcases Nat.lt_or_eq_of_le hm with hlt | heq
  · have hexponent : x.exponent = e := by omega
    have hsignificand : x.significand = m := by
      rw [hsig, hexponent]
      omega
    rw [units_eq, hexponent, hsignificand]
  · -- the carry makes the exponent greater by one and halves the significand
    have hexponent : x.exponent = e + 1 := by omega
    have hsignificand : x.significand = 2 ^ 52 := by
      rw [hsig, hexponent]
      omega
    rw [units_eq, hexponent, hsignificand, heq, Nat.pow_succ 2 e]
    omega

/-! ## §3. The nearest magnitude -/

/-- The exponent of the binade of a quotient. -/
def binade (num den : Nat) : Nat := (num * unitsPerOne / den).log2 - 52

/-- The units of a quotient's binade that it has, cut to a whole number. -/
theorem quotient_lt (num den : Nat) :
    num * unitsPerOne / (den * 2 ^ binade num den) < 2 ^ 53 := by
  rw [← Nat.div_div_eq_div_mul, Nat.div_lt_iff_lt_mul (Nat.two_pow_pos _), ← Nat.pow_add]
  have hlog := Nat.lt_log2_self (n := num * unitsPerOne / den)
  have hpow : 2 ^ ((num * unitsPerOne / den).log2 + 1) ≤ 2 ^ (53 + binade num den) := by
    apply Nat.pow_le_pow_right (by omega)
    unfold binade
    omega
  omega

/-- Above the first binade a quotient has at least `2 ^ 52` units of its binade. -/
theorem le_quotient (num den : Nat) (h : 0 < binade num den) :
    2 ^ 52 ≤ num * unitsPerOne / (den * 2 ^ binade num den) := by
  have hlog : (num * unitsPerOne / den).log2 = 52 + binade num den := by
    unfold binade at h ⊢
    omega
  have hne : num * unitsPerOne / den ≠ 0 := by
    intro hzero
    rw [hzero, Nat.log2_zero] at hlog
    omega
  rw [← Nat.div_div_eq_div_mul, Nat.le_div_iff_mul_le (Nat.two_pow_pos _), ← Nat.pow_add, ← hlog]
  exact Nat.log2_self_le hne

/-- The word that rounding builds. -/
def nearestWord (num den : Nat) : Nat :=
  binade num den * 2 ^ 52 + roundHalfEven (num * unitsPerOne) (den * 2 ^ binade num den)

/-- The nearest number has the nearest word, if that is one of a finite number. -/
theorem nearest?_eq (num den : Nat) :
    nearest? num den
      = if h : nearestWord num den < 2047 <<< 52 then some ⟨nearestWord num den, h⟩ else none := by
  have hword : binade num den <<< 52 + roundHalfEven (num * unitsPerOne) (den <<< binade num den)
      = nearestWord num den := by
    rw [Nat.shiftLeft_eq, Nat.shiftLeft_eq]
    rfl
  simp only [← hword]
  rfl

/-- The nearest magnitude has as many units of the quotient's binade as rounding gives. -/
theorem units_of_nearest? (h : nearest? num den = some x) :
    x.units = roundHalfEven (num * unitsPerOne) (den * 2 ^ binade num den)
      * 2 ^ binade num den := by
  rw [nearest?_eq] at h
  split at h
  next hword =>
    injection h with h
    have hlt := quotient_lt num den
    have hle := roundHalfEven_le (num * unitsPerOne) (den * 2 ^ binade num den)
    have hge := div_le_roundHalfEven (num * unitsPerOne) (den * 2 ^ binade num den)
    have hx : x.word = nearestWord num den := by rw [← h]
    apply units_of_word_eq hx (by omega)
    by_cases hzero : binade num den = 0
    · exact .inl hzero
    · have := le_quotient num den (Nat.pos_of_ne_zero hzero)
      exact .inr (by omega)
  next => cases h

/-- The binade of a quotient that is a magnitude is that magnitude's. -/
theorem log2_units_sub (x : Magnitude) : x.units.log2 - 52 = x.exponent := by
  have hunits := x.units_eq
  by_cases hexp : x.exponent = 0
  · rw [hexp, Nat.pow_zero, Nat.mul_one] at hunits
    by_cases hzero : x.units = 0
    · rw [hzero, hexp, Nat.log2_zero]
    · have hlog : x.units.log2 < 53 := by
        rw [Nat.log2_lt hzero, hunits]
        exact x.significand_lt
      omega
  · -- the leading bit of the significand is the leading bit of the units
    have hlow : 2 ^ (52 + x.exponent) ≤ x.units := by
      rw [Nat.pow_add, hunits]
      exact Nat.mul_le_mul_right _ (le_significand (Nat.pos_of_ne_zero hexp))
    have hhigh : x.units < 2 ^ (53 + x.exponent) := by
      rw [Nat.pow_add, hunits]
      exact Nat.mul_lt_mul_of_pos_right x.significand_lt (Nat.two_pow_pos _)
    have hzero : x.units ≠ 0 := by
      have := Nat.two_pow_pos (52 + x.exponent)
      omega
    have h52 := (Nat.le_log2 hzero).mpr hlow
    have h53 := (Nat.log2_lt hzero).mpr hhigh
    omega

/-- A quotient that is a magnitude is its own nearest one. -/
theorem nearest?_of_eq_units (hden : 0 < den) (h : num * unitsPerOne = x.units * den) :
    nearest? num den = some x := by
  have hbinade : binade num den = x.exponent := by
    unfold binade
    rw [h, Nat.mul_div_cancel _ hden, log2_units_sub]
  have hround : roundHalfEven (num * unitsPerOne) (den * 2 ^ binade num den) = x.significand := by
    rw [hbinade, h, x.units_eq, Nat.mul_assoc, Nat.mul_comm (2 ^ x.exponent) den]
    exact roundHalfEven_mul_self (Nat.mul_pos hden (Nat.two_pow_pos _)) _
  -- nothing was rounded, so the word is put together from the parts of the magnitude
  have hword : nearestWord num den = x.word := by
    unfold nearestWord
    rw [hround, hbinade, ← x.word_eq]
  simp only [nearest?_eq, hword]
  exact dif_pos x.word_lt

/-- Where the unit of its binade is a part of one, a natural number is not rounded. -/
theorem units_of_nearest?_one {n : Nat} (hbinade : binade n 1 ≤ 1074) (h : nearest? n 1 = some x) :
    x.units = n * unitsPerOne := by
  have hunits := units_of_nearest? h
  rw [Nat.one_mul] at hunits
  have hone : unitsPerOne = 2 ^ (1074 - binade n 1) * 2 ^ binade n 1 := by
    rw [unitsPerOne_eq, ← Nat.pow_add, Nat.sub_add_cancel hbinade]
  have hround : roundHalfEven (n * unitsPerOne) (2 ^ binade n 1) = n * 2 ^ (1074 - binade n 1) := by
    conv => lhs; rw [hone, ← Nat.mul_assoc]
    exact roundHalfEven_mul_self (Nat.two_pow_pos _) _
  rw [hunits, hround, Nat.mul_assoc, ← hone]

/-- The nearest magnitude to a natural number is whole. -/
theorem whole_of_nearest?_one {n : Nat} (h : nearest? n 1 = some x) :
    ∃ m, x.units = m * unitsPerOne := by
  rcases Nat.le_total (binade n 1) 1074 with hle | hge
  · exact ⟨n, units_of_nearest?_one hle h⟩
  · -- the units of the binade are whole numbers themselves
    have hunits := units_of_nearest? h
    rw [Nat.one_mul] at hunits
    have hpow : 2 ^ binade n 1 = 2 ^ (binade n 1 - 1074) * unitsPerOne := by
      rw [unitsPerOne_eq, ← Nat.pow_add, Nat.sub_add_cancel hge]
    refine ⟨roundHalfEven (n * unitsPerOne) (2 ^ binade n 1) * 2 ^ (binade n 1 - 1074), ?_⟩
    rw [hunits, Nat.mul_assoc, ← hpow]

/-- A natural number that is rounded is at least `2 ^ 53`, and so is its nearest magnitude. -/
theorem le_units_of_nearest?_one {n : Nat} (hbinade : 1074 < binade n 1)
    (h : nearest? n 1 = some x) :
    2 ^ 53 * unitsPerOne ≤ n * unitsPerOne ∧ 2 ^ 53 * unitsPerOne ≤ x.units := by
  have hunits := units_of_nearest? h
  have hquotient := le_quotient n 1 (by omega)
  have hround := div_le_roundHalfEven (n * unitsPerOne) (1 * 2 ^ binade n 1)
  have hbound : 2 ^ 53 * unitsPerOne ≤ 2 ^ 52 * 2 ^ binade n 1 := by
    have hpow : 2 * unitsPerOne ≤ 2 ^ binade n 1 := two_mul_unitsPerOne_le hbinade
    omega
  constructor
  · calc 2 ^ 53 * unitsPerOne ≤ 2 ^ 52 * 2 ^ binade n 1 := hbound
      _ ≤ n * unitsPerOne / (1 * 2 ^ binade n 1) * (1 * 2 ^ binade n 1) :=
          Nat.mul_le_mul hquotient (by omega)
      _ ≤ n * unitsPerOne := Nat.div_mul_le_self _ _
  · rw [hunits]
    exact Nat.le_trans hbound (Nat.mul_le_mul_right _ (by omega))

/-- A magnitude with a fraction is below `2 ^ 52`. -/
theorem units_lt_of_whole?_eq_none (h : x.whole? = none) : x.units < 2 ^ 52 * unitsPerOne := by
  have hexponent : x.exponent < 1074 := by
    refine Nat.lt_of_not_le fun hle => ?_
    -- from there on the unit of the binade is a whole number
    have hdvd : unitsPerOne ∣ x.units := by
      rw [x.units_eq]
      exact Nat.dvd_mul_left_of_dvd (unitsPerOne_dvd_two_pow hle) _
    unfold whole? at h
    rw [if_pos (Nat.mod_eq_zero_of_dvd hdvd)] at h
    cases h
  have hpow : 2 * 2 ^ x.exponent ≤ unitsPerOne := by
    rw [Nat.mul_comm, ← Nat.pow_succ]
    exact two_pow_le_unitsPerOne hexponent
  have hunits : x.units < 2 ^ 53 * 2 ^ x.exponent := by
    rw [x.units_eq]
    exact Nat.mul_lt_mul_of_pos_right x.significand_lt (Nat.two_pow_pos _)
  omega

/-! ## §4. Out of range -/

/-- Below `2 ^ 1023` there is a nearest magnitude. -/
theorem exists_nearest?_of_lt {e : Nat} (he : e ≤ 1023) (hden : 0 < den) (h : num < den * 2 ^ e) :
    ∃ x, nearest? num den = some x := by
  have hquotient : num * unitsPerOne / den < 2 ^ (e + 1074) := by
    have hpow (m : Nat) : 2 ^ (e + m) = 2 ^ e * 2 ^ m := Nat.pow_add 2 e m
    rw [Nat.div_lt_iff_lt_mul hden, hpow 1074, ← unitsPerOne_eq, Nat.mul_right_comm,
      Nat.mul_comm (2 ^ e)]
    exact Nat.mul_lt_mul_of_pos_right h unitsPerOne_pos
  have hbinade : binade num den ≤ 2044 := by
    unfold binade
    by_cases hzero : num * unitsPerOne / den = 0
    · rw [hzero, Nat.log2_zero]
      omega
    · have := (Nat.log2_lt hzero).mpr hquotient
      omega
  have hlt := quotient_lt num den
  have hround := roundHalfEven_le (num * unitsPerOne) (den * 2 ^ binade num den)
  have hword : nearestWord num den < 2047 <<< 52 := by
    unfold nearestWord
    omega
  exact ⟨⟨nearestWord num den, hword⟩, by rw [nearest?_eq, dif_pos hword]⟩

/-- From `2 ^ 1024` on no finite magnitude is nearest. -/
theorem nearest?_eq_none_of_le {e : Nat} (he : 1024 ≤ e) (hden : 0 < den)
    (h : den * 2 ^ e ≤ num) : nearest? num den = none := by
  have hquotient : 2 ^ (e + 1074) ≤ num * unitsPerOne / den := by
    rw [Nat.le_div_iff_mul_le hden, unitsPerOne_eq]
    calc 2 ^ (e + 1074) * den = den * 2 ^ e * 2 ^ 1074 := by
          rw [Nat.mul_assoc, ← Nat.pow_add, Nat.mul_comm]
      _ ≤ num * 2 ^ 1074 := Nat.mul_le_mul_right _ h
  have hne : num * unitsPerOne / den ≠ 0 := by
    have := Nat.two_pow_pos (e + 1074)
    omega
  have hbinade : 2046 ≤ binade num den := by
    have := (Nat.le_log2 hne).mpr hquotient
    unfold binade
    omega
  -- the binade and the leading bit alone make the word too great
  have hsignificand := le_quotient num den (by omega)
  have hround := div_le_roundHalfEven (num * unitsPerOne) (den * 2 ^ binade num den)
  have hword : ¬nearestWord num den < 2047 <<< 52 := by
    unfold nearestWord
    omega
  rw [nearest?_eq, dif_neg hword]

/-- Below half of the least unit, which is `2 ^ -1075`, the nearest magnitude is zero. -/
theorem nearest?_eq_zero_of_lt {e : Nat} (he : 1075 ≤ e) (h : num * 2 ^ e < den) :
    nearest? num den = some zero := by
  have hunit : 2 * unitsPerOne ≤ 2 ^ e := two_mul_unitsPerOne_le (by omega)
  -- the quotient has less than half a unit, which is rounded off in the first binade
  have hhalf : 2 * (num * unitsPerOne) < den := by
    calc 2 * (num * unitsPerOne) = num * (2 * unitsPerOne) := Nat.mul_left_comm _ _ _
      _ ≤ num * 2 ^ e := Nat.mul_le_mul_left _ hunit
      _ < den := h
  have hbinade : binade num den = 0 := by
    unfold binade
    rw [Nat.div_eq_of_lt (by omega), Nat.log2_zero]
  have hround : roundHalfEven (num * unitsPerOne) (den * 2 ^ 0) = 0 := by
    rw [Nat.pow_zero, Nat.mul_one]
    exact roundHalfEven_eq_zero hhalf
  simp only [nearest?_eq, nearestWord, hbinade, hround]
  rfl

end Magnitude

end CsvQuery

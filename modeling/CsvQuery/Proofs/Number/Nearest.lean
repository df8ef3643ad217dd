/-
  CsvQuery.Proofs.Number.Nearest — decimals are rounded correctly.

  The correctly rounded magnitude of a number is the one that lies nearest to it.  Of two equally near ones
  it is the one with an even word, and from half a step past the greatest magnitude on there is none.
  Rounding keeps to the multiples of one unit, that of the number's binade.  The magnitudes of no lower
  exponent are among these multiples, and the others lie below the binade, so none of them is nearer.

  Main results:
    • `roundHalfEven_closest`, `roundHalfEven_even` — a rounded quotient among all whole numbers
    • `Magnitude.isNearest_of_nearest?` — the nearest magnitude to a quotient is correctly rounded
    • `Magnitude.nearest?_eq_none_iff` — where there is none
    • `Magnitude.IsNearest.unique` — correct rounding leaves no choice
    • `Decimal.nearest?_eq_some_iff`, `Decimal.nearest?_eq_none_iff` — decimals
    • `Numeral.nearest?_eq_some_iff`, `Numeral.nearest?_eq_none_iff` — numerals, with their signs
-/
import Mathlib.Data.Nat.Dist
import Mathlib.Tactic.Linarith
import Mathlib.Tactic.Ring
import CsvQuery.Proofs.Cell.Value
import CsvQuery.Proofs.Number.Decimal

namespace CsvQuery

/-! ## §1. Rounded quotients -/

section Quotient

variable {num den : Nat}

/-- Rounding moves a quotient by half of one at most, and by as much as that only to an even number. -/
theorem roundHalfEven_bounds (num : Nat) (hden : 0 < den) :
    2 * num ≤ 2 * (roundHalfEven num den * den) + den ∧
      2 * (roundHalfEven num den * den) ≤ 2 * num + den ∧
      (2 * num = 2 * (roundHalfEven num den * den) + den ∨
          2 * (roundHalfEven num den * den) = 2 * num + den →
        roundHalfEven num den % 2 = 0) := by
  have hdivision := Nat.div_add_mod' num den
  have hrest := Nat.mod_lt num hden
  have hnext : (num / den + 1) * den = num / den * den + den := Nat.succ_mul _ _
  unfold roundHalfEven
  dsimp only
  split
  · omega
  · split
    · omega
    · -- halfway between two whole numbers
      rcases Nat.mod_two_eq_zero_or_one (num / den) with heven | hodd
      · rw [heven, Nat.add_zero]
        omega
      · rw [hodd]
        omega

theorem mul_add_le_mul (den : Nat) {m n : Nat} (h : m < n) : m * den + den ≤ n * den := by
  rw [← Nat.succ_mul]
  exact Nat.mul_le_mul_right den h

/-- No whole number is nearer to a quotient than the rounded one. -/
theorem roundHalfEven_closest (num : Nat) (hden : 0 < den) (m : Nat) :
    Nat.dist (roundHalfEven num den * den) num ≤ Nat.dist (m * den) num := by
  obtain ⟨hlow, hhigh, -⟩ := roundHalfEven_bounds num hden
  simp only [Nat.dist]
  rcases Nat.lt_trichotomy m (roundHalfEven num den) with hlt | heq | hgt
  · have := mul_add_le_mul den hlt
    omega
  · rw [heq]
  · have := mul_add_le_mul den hgt
    omega

/-- Where another whole number is as near, the rounded one is even. -/
theorem roundHalfEven_even (hden : 0 < den) {m : Nat} (hm : m ≠ roundHalfEven num den)
    (h : Nat.dist (roundHalfEven num den * den) num = Nat.dist (m * den) num) :
    roundHalfEven num den % 2 = 0 := by
  obtain ⟨hlow, hhigh, heven⟩ := roundHalfEven_bounds num hden
  simp only [Nat.dist] at h
  apply heven
  rcases Nat.lt_or_gt_of_ne hm with hlt | hgt
  · have := mul_add_le_mul den hlt
    omega
  · have := mul_add_le_mul den hgt
    omega

end Quotient

namespace Magnitude

variable {x y : Magnitude} {num den : Nat}

/-! ## §2. Among all magnitudes -/

/-- The units of a magnitude of no lower exponent are a multiple of those of the binade. -/
theorem exists_units_eq_mul {e : Nat} (h : e ≤ y.exponent) : ∃ m, y.units = m * 2 ^ e := by
  refine ⟨y.significand * 2 ^ (y.exponent - e), ?_⟩
  rw [y.units_eq, Nat.mul_assoc, ← Nat.pow_add, Nat.sub_add_cancel h]

/-- A magnitude of a lower exponent lies below the binade. -/
theorem units_lt_of_exponent_lt_binade {e : Nat} (h : y.exponent < e) : y.units < 2 ^ 52 * 2 ^ e := by
  have hpow : 2 ^ (y.exponent + 1) ≤ 2 ^ e := Nat.pow_le_pow_right (by decide) h
  rw [Nat.pow_succ] at hpow
  calc y.units = y.significand * 2 ^ y.exponent := y.units_eq
    _ < 2 ^ 53 * 2 ^ y.exponent := Nat.mul_lt_mul_of_pos_right y.significand_lt (Nat.two_pow_pos _)
    _ ≤ 2 ^ 52 * 2 ^ e := by omega

/-- A magnitude of a lower exponent than the binade of a quotient is not as near to it as the nearest one. -/
theorem dist_lt_of_exponent_lt_binade (hden : 0 < den) (hy : y.exponent < binade num den) :
    Nat.dist (roundHalfEven (num * unitsPerOne) (den * 2 ^ binade num den)
        * (den * 2 ^ binade num den)) (num * unitsPerOne)
      < Nat.dist (y.units * den) (num * unitsPerOne) := by
  have hunit : 0 < den * 2 ^ binade num den := Nat.mul_pos hden (Nat.two_pow_pos _)
  -- the least number of the binade is between the two
  have hclosest := roundHalfEven_closest (num * unitsPerOne) hunit (2 ^ 52)
  have hbelow : y.units * den < 2 ^ 52 * (den * 2 ^ binade num den) := by
    rw [Nat.mul_comm den, ← Nat.mul_assoc]
    exact Nat.mul_lt_mul_of_pos_right (units_lt_of_exponent_lt_binade hy) hden
  have habove : 2 ^ 52 * (den * 2 ^ binade num den) ≤ num * unitsPerOne :=
    (Nat.le_div_iff_mul_le hunit).mp (le_quotient num den (by omega))
  simp only [Nat.dist] at hclosest ⊢
  omega

theorem units_mul_of_nearest? (h : nearest? num den = some x) :
    x.units * den = roundHalfEven (num * unitsPerOne) (den * 2 ^ binade num den)
      * (den * 2 ^ binade num den) := by
  rw [units_of_nearest? h, Nat.mul_assoc, Nat.mul_comm den]

theorem word_of_nearest? (h : nearest? num den = some x) : x.word = nearestWord num den := by
  rw [nearest?_eq] at h
  split at h
  next => rw [← Option.some.inj h]
  next => cases h

/-- No magnitude is nearer to a quotient than the nearest one. -/
theorem closest_of_nearest? (hden : 0 < den) (h : nearest? num den = some x) (y : Magnitude) :
    Nat.dist (x.units * den) (num * unitsPerOne) ≤ Nat.dist (y.units * den) (num * unitsPerOne) := by
  have hunit : 0 < den * 2 ^ binade num den := Nat.mul_pos hden (Nat.two_pow_pos _)
  rw [units_mul_of_nearest? h]
  rcases Nat.lt_or_ge y.exponent (binade num den) with hlt | hge
  · exact Nat.le_of_lt (dist_lt_of_exponent_lt_binade hden hlt)
  · obtain ⟨m, hm⟩ := exists_units_eq_mul hge
    rw [hm, Nat.mul_assoc, Nat.mul_comm (2 ^ _) den]
    exact roundHalfEven_closest _ hunit m

/-- Where another magnitude is as near, the word of the nearest one is even. -/
theorem even_of_nearest? (hden : 0 < den) (h : nearest? num den = some x) (hy : y ≠ x)
    (hdist : Nat.dist (x.units * den) (num * unitsPerOne)
      = Nat.dist (y.units * den) (num * unitsPerOne)) : x.word % 2 = 0 := by
  have hunit : 0 < den * 2 ^ binade num den := Nat.mul_pos hden (Nat.two_pow_pos _)
  have hword := word_of_nearest? h
  rw [units_mul_of_nearest? h] at hdist
  rcases Nat.lt_or_ge y.exponent (binade num den) with hlt | hge
  · exact absurd hdist (Nat.ne_of_lt (dist_lt_of_exponent_lt_binade hden hlt))
  · obtain ⟨m, hm⟩ := exists_units_eq_mul hge
    have hne : m ≠ roundHalfEven (num * unitsPerOne) (den * 2 ^ binade num den) := by
      intro heq
      apply hy
      rw [← units_inj, hm, heq, units_of_nearest? h]
    rw [hm, Nat.mul_assoc, Nat.mul_comm (2 ^ _) den] at hdist
    have heven := roundHalfEven_even hunit hne hdist
    -- the exponent field begins above the lowest bit
    unfold nearestWord at hword
    omega

/-! ## §3. Out of range -/

/-- The word of a rounded quotient comes to the end of a binade from half a step before it on. -/
theorem le_nearestWord_iff (num : Nat) (hden : 0 < den) (e : Nat) :
    (e + 3) * 2 ^ 52 ≤ nearestWord num den ↔ (2 ^ 54 - 1) * (den * 2 ^ e) ≤ num * unitsPerOne := by
  have hunit : 0 < den * 2 ^ binade num den := Nat.mul_pos hden (Nat.two_pow_pos _)
  have hlt := quotient_lt num den
  have hround := roundHalfEven_le (num * unitsPerOne) (den * 2 ^ binade num den)
  have hbelow := (Nat.div_lt_iff_lt_mul hunit).mp hlt
  unfold nearestWord
  rcases Nat.lt_trichotomy (binade num den) (e + 1) with hlow | hlast | hhigh
  · -- a lower binade: both are below the bound
    have hpow : den * 2 ^ binade num den ≤ den * 2 ^ e :=
      Nat.mul_le_mul_left den (Nat.pow_le_pow_right (by decide) (by omega))
    exact iff_of_false (by omega) (by omega)
  · -- the binade itself: its last step is rounded up from the middle on, as its number is odd
    have hstep : den * 2 ^ binade num den = 2 * (den * 2 ^ e) := by
      rw [hlast, Nat.pow_succ, ← Nat.mul_assoc, Nat.mul_comm]
    obtain ⟨hlow, hhigh, heven⟩ := roundHalfEven_bounds (num * unitsPerOne) hunit
    rw [hstep] at hlow hhigh heven ⊢
    rw [hlast]
    generalize roundHalfEven (num * unitsPerOne) (2 * (den * 2 ^ e)) = rounded at *
    constructor
    · intro hword
      have hmul : 2 ^ 53 * (2 * (den * 2 ^ e)) ≤ rounded * (2 * (den * 2 ^ e)) :=
        Nat.mul_le_mul_right _ (by omega)
      omega
    · intro hnum
      refine Nat.le_of_not_lt fun hword => ?_
      have hmul : rounded * (2 * (den * 2 ^ e)) ≤ (2 ^ 53 - 1) * (2 * (den * 2 ^ e)) :=
        Nat.mul_le_mul_right _ (by omega)
      have hodd : rounded = 2 ^ 53 - 1 := by
        refine Nat.le_antisymm (by omega) (Nat.le_of_not_lt fun hless => ?_)
        have := mul_add_le_mul (2 * (den * 2 ^ e)) hless
        omega
      omega
  · -- a greater binade: both have reached the bound
    have hsignificand := le_quotient num den (by omega)
    have hleast := div_le_roundHalfEven (num * unitsPerOne) (den * 2 ^ binade num den)
    have habove := (Nat.le_div_iff_mul_le hunit).mp hsignificand
    have hpow : den * 2 ^ (e + 2) ≤ den * 2 ^ binade num den :=
      Nat.mul_le_mul_left den (Nat.pow_le_pow_right (by decide) (by omega))
    have hstep : den * 2 ^ (e + 2) = 4 * (den * 2 ^ e) := by
      rw [Nat.pow_succ, Nat.pow_succ, Nat.mul_assoc, ← Nat.mul_assoc, Nat.mul_comm]
    exact iff_of_true (by omega) (by omega)

/-- The number half a step past the greatest magnitude. -/
def overflow : ℚ := 2 ^ 1024 - 2 ^ 970

theorem overflow_mul_unitsPerOne : overflow * unitsPerOne = ((2 ^ 54 - 1) * 2 ^ 2044 : ℕ) := by
  have hstep (e : ℕ) : (2 : ℚ) ^ (54 + e) - 2 ^ e = (2 ^ 54 - 1) * 2 ^ e := by ring
  have hunits (e d : ℕ) : (2 : ℚ) ^ e * (2 ^ d : ℕ) = 2 ^ (e + d) := by
    rw [Nat.cast_pow, Nat.cast_ofNat, ← pow_add]
  have hoverflow : overflow = (2 ^ 54 - 1) * 2 ^ 970 := hstep 970
  have hpow : (2 : ℚ) ^ 970 * (2 ^ 1074 : ℕ) = 2 ^ 2044 := hunits 970 1074
  rw [hoverflow, unitsPerOne_eq, mul_assoc, hpow, Nat.cast_mul, Nat.cast_pow, Nat.cast_ofNat]
  norm_num

/-- A quotient has a nearest magnitude exactly below half a step past the greatest one. -/
theorem nearest?_eq_none_iff (hden : 0 < den) :
    nearest? num den = none ↔ overflow ≤ (num : ℚ) / den := by
  have hword : nearest? num den = none ↔ (2044 + 3) * 2 ^ 52 ≤ nearestWord num den := by
    rw [nearest?_eq]
    split
    next h => exact iff_of_false (Option.some_ne_none _) (by omega)
    next h => exact iff_of_true rfl (by omega)
  have hbound := le_nearestWord_iff num hden 2044
  have hdenq : (0 : ℚ) < den := Nat.cast_pos.mpr hden
  have hunits : (0 : ℚ) < unitsPerOne := Nat.cast_pos.mpr unitsPerOne_pos
  rw [hword, hbound, le_div_iff₀ hdenq, ← mul_le_mul_iff_left₀ hunits, mul_right_comm,
    overflow_mul_unitsPerOne, mul_comm den, ← Nat.mul_assoc]
  norm_cast

/-! ## §4. Correct rounding -/

/-- The magnitude is the correctly rounded one: the number is not too great, no other magnitude is nearer to
it, and if another one is as near then the word, whose lowest bit is that of the significand, is even. -/
structure IsNearest (x : Magnitude) (q : ℚ) : Prop where
  inRange : q < overflow
  closest : ∀ y : Magnitude, |x.value - q| ≤ |y.value - q|
  even : ∀ y : Magnitude, y ≠ x → |x.value - q| = |y.value - q| → x.word % 2 = 0

theorem cast_dist (m n : ℕ) : (Nat.dist m n : ℚ) = |(m : ℚ) - n| := by
  rcases Nat.le_total m n with h | h
  · rw [Nat.dist_eq_sub_of_le h, Nat.cast_sub h, abs_sub_comm, abs_of_nonneg]
    exact sub_nonneg.mpr (Nat.cast_le.mpr h)
  · rw [Nat.dist_eq_sub_of_le_right h, Nat.cast_sub h, abs_of_nonneg]
    exact sub_nonneg.mpr (Nat.cast_le.mpr h)

/-- How far a magnitude is from a quotient, in units of the denominator. -/
theorem abs_value_sub_mul (hden : 0 < den) (x : Magnitude) :
    |x.value - num / den| * (den * unitsPerOne)
      = Nat.dist (x.units * den) (num * unitsPerOne) := by
  have hdenq : (0 : ℚ) < den := Nat.cast_pos.mpr hden
  have hunits : (0 : ℚ) < unitsPerOne := Nat.cast_pos.mpr unitsPerOne_pos
  have hscale : (0 : ℚ) < den * unitsPerOne := mul_pos hdenq hunits
  have hvalue : x.value * unitsPerOne = x.units := by
    rw [x.value_eq, mul_assoc, mul_comm _ (unitsPerOne : ℚ), unitsPerOne_mul, mul_one]
  have hquotient : (num : ℚ) / den * den = num := div_mul_cancel₀ _ hdenq.ne'
  rw [cast_dist, ← abs_of_pos hscale, ← abs_mul, sub_mul]
  congr 1
  calc x.value * (den * unitsPerOne) - num / den * (den * unitsPerOne)
      = x.value * unitsPerOne * den - num / den * den * unitsPerOne := by ring
    _ = ((x.units * den : ℕ) : ℚ) - (num * unitsPerOne : ℕ) := by
        rw [hvalue, hquotient, Nat.cast_mul, Nat.cast_mul]

/-- Magnitudes are as far from a quotient as their units say. -/
theorem abs_value_sub_le_iff (hden : 0 < den) :
    |x.value - num / den| ≤ |y.value - num / den| ↔
      Nat.dist (x.units * den) (num * unitsPerOne) ≤ Nat.dist (y.units * den) (num * unitsPerOne) := by
  have hscale : (0 : ℚ) < den * unitsPerOne :=
    mul_pos (Nat.cast_pos.mpr hden) (Nat.cast_pos.mpr unitsPerOne_pos)
  rw [← mul_le_mul_iff_left₀ hscale, abs_value_sub_mul hden, abs_value_sub_mul hden, Nat.cast_le]

/-- The nearest magnitude to a quotient is correctly rounded. -/
theorem isNearest_of_nearest? (hden : 0 < den) (h : nearest? num den = some x) :
    x.IsNearest ((num : ℚ) / den) where
  inRange := by
    refine not_le.mp fun hle => ?_
    rw [(nearest?_eq_none_iff hden).mpr hle] at h
    cases h
  closest y := (abs_value_sub_le_iff hden).mpr (closest_of_nearest? hden h y)
  even y hy hequal := even_of_nearest? hden h hy
    (Nat.le_antisymm ((abs_value_sub_le_iff hden).mp hequal.le)
      ((abs_value_sub_le_iff hden).mp hequal.ge))

theorem value_lt_value (h : x.word < y.word) : x.value < y.value := by
  rw [x.value_eq, y.value_eq]
  exact mul_lt_mul_of_pos_right (Nat.cast_lt.mpr (units_lt_units h)) (zpow_pos two_pos _)

/-- Of two correctly rounded magnitudes neither has the greater word. -/
theorem IsNearest.not_word_lt {q : ℚ} (hx : x.IsNearest q) (hy : y.IsNearest q) :
    ¬x.word < y.word := by
  intro hlt
  have hne : y ≠ x := by
    rintro rfl
    exact Nat.lt_irrefl _ hlt
  have hequal := le_antisymm (hx.closest y) (hy.closest x)
  have hevenx := hx.even y hne hequal
  have heveny := hy.even x hne.symm hequal.symm
  -- two even words have an odd one between them, and its magnitude is nearer than both
  let between : Magnitude := ⟨x.word + 1, Nat.lt_trans (by omega) y.word_lt⟩
  have hleft : x.value < between.value := value_lt_value (Nat.lt_succ_self _)
  have hright : between.value < y.value := value_lt_value (show x.word + 1 < y.word by omega)
  have hmiddle : x.value - q = -(y.value - q) :=
    (abs_eq_abs.mp hequal).resolve_left fun heq => by linarith
  have hcloser : |between.value - q| < |x.value - q| := by
    have hside : |y.value - q| = y.value - q := abs_of_nonneg (by linarith)
    rw [hequal, hside, abs_lt]
    constructor <;> linarith
  exact absurd (hx.closest between) (not_le.mpr hcloser)

/-- Correct rounding leaves no choice. -/
theorem IsNearest.unique {q : ℚ} (hx : x.IsNearest q) (hy : y.IsNearest q) : x = y := by
  have hword : x.word = y.word :=
    Nat.le_antisymm (Nat.le_of_not_lt (hy.not_word_lt hx)) (Nat.le_of_not_lt (hx.not_word_lt hy))
  cases x
  cases y
  simpa using hword

/-- Rounding does not fall below a magnitude that the number is not below. -/
theorem IsNearest.le_value {q : ℚ} (hx : x.IsNearest q) (hy : y.value ≤ q) : y.value ≤ x.value := by
  refine not_lt.mp fun hlt => ?_
  have hclosest := hx.closest y
  rw [abs_of_nonpos (by linarith), abs_of_nonpos (by linarith)] at hclosest
  linarith

/-- The nearest magnitude to a quotient is the correctly rounded one. -/
theorem nearest?_eq_some_iff (hden : 0 < den) :
    nearest? num den = some x ↔ x.IsNearest ((num : ℚ) / den) := by
  constructor
  · exact isNearest_of_nearest? hden
  · intro hx
    cases h : nearest? num den with
    | none => exact absurd ((nearest?_eq_none_iff hden).mp h) (not_le.mpr hx.inRange)
    | some y => rw [(isNearest_of_nearest? hden h).unique hx]

end Magnitude

/-! ## §5. Decimals -/

namespace Decimal

/-- The number that a decimal is. -/
def value (d : Decimal) : ℚ := d.coefficient * 10 ^ d.place

theorem quotient_pos (d : Decimal) : 0 < d.quotient.2 := by
  obtain ⟨c, place⟩ := d
  cases place with
  | ofNat k => exact Nat.one_pos
  | negSucc k => exact Nat.pow_pos (by decide)

theorem value_eq (d : Decimal) : d.value = (d.quotient.1 : ℚ) / d.quotient.2 := by
  obtain ⟨c, place⟩ := d
  unfold value quotient
  cases place with
  | ofNat k =>
    show (c : ℚ) * 10 ^ (k : ℤ) = ((c * 10 ^ k : ℕ) : ℚ) / (1 : ℕ)
    rw [zpow_natCast, Nat.cast_mul, Nat.cast_pow, Nat.cast_ofNat, Nat.cast_one, div_one]
  | negSucc k =>
    show (c : ℚ) * 10 ^ (Int.negSucc k) = (c : ℚ) / ((10 ^ (k + 1) : ℕ) : ℚ)
    rw [zpow_negSucc, Nat.cast_pow, Nat.cast_ofNat, div_eq_mul_inv]

/-- The magnitude that a decimal is rounded to is the correctly rounded one. -/
theorem nearest?_eq_some_iff {d : Decimal} {x : Magnitude} :
    d.nearest? = some x ↔ x.IsNearest d.value := by
  rw [nearest?_eq_quotient, value_eq]
  exact Magnitude.nearest?_eq_some_iff d.quotient_pos

/-- A decimal is not rounded where it is too great for any magnitude. -/
theorem nearest?_eq_none_iff {d : Decimal} : d.nearest? = none ↔ Magnitude.overflow ≤ d.value := by
  rw [nearest?_eq_quotient, value_eq]
  exact Magnitude.nearest?_eq_none_iff d.quotient_pos

end Decimal

/-! ## §6. Numerals -/

namespace Numeral

/-- The number that a numeral denotes, its sign left aside: all its digits as one whole number, times ten to
the exponent less the number of digits after the point. -/
def value (n : Numeral) : ℚ :=
  digitsValue (n.whole ++ n.fraction) * 10 ^ (n.exponent - n.fraction.length)

/-- A numeral is rounded to its sign and the correctly rounded magnitude. -/
theorem nearest?_eq_some_iff {n : Numeral} {x : Binary64} :
    n.nearest? = some x ↔ ∃ m : Magnitude, m.IsNearest n.value ∧ x = .finite n.negative m := by
  unfold nearest?
  rw [Option.map_eq_some_iff]
  constructor
  · rintro ⟨m, hm, rfl⟩
    exact ⟨m, Decimal.nearest?_eq_some_iff.mp hm, rfl⟩
  · rintro ⟨m, hm, rfl⟩
    exact ⟨m, Decimal.nearest?_eq_some_iff.mpr hm, rfl⟩

/-- A numeral is not rounded where it is too great. -/
theorem nearest?_eq_none_iff {n : Numeral} : n.nearest? = none ↔ Magnitude.overflow ≤ n.value := by
  unfold nearest?
  rw [Option.map_eq_none_iff]
  exact Decimal.nearest?_eq_none_iff

end Numeral

end CsvQuery

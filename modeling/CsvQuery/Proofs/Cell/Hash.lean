/-
  CsvQuery.Proofs.Cell.Hash — hashing agrees with equality.

  The test for an exact integer looks at the fraction and at the bounds `-2 ^ 63` and `2 ^ 63`, and it
  answers with the integer that the number equals whenever one of 64 bits does.  So hashing kind by kind
  feeds the bytes of the cell's key, and these tell cells apart exactly as comparing does.

  Main results:
    • `Binary64.exactInt64?_eq` — the test finds the integer that the number equals
    • `Binary64.int64?_eq_some_iff_value` — in terms of exact values
    • `Cell.hashBytes_eq_key` — what is fed is the key
    • `Cell.hashBytes_coincide` — hashing and equality, all together
-/
import CsvQuery.Cell.Hash
import CsvQuery.Proofs.Cell.Value

namespace CsvQuery

namespace Binary64

/-! ## §1. Exact integers -/

theorem signed_eq_zero_iff {negative : Bool} {n : Nat} : signed negative n = 0 ↔ n = 0 := by
  cases negative <;> simp [signed]

/-- No infinity has a fraction, and neither has what is not a number. -/
theorem exactInt64?_eq_none_of_fraction? {x : Binary64} (h : x.fraction? ≠ some 0) :
    x.exactInt64? = none := by
  unfold exactInt64?
  rw [if_neg fun hboth => h hboth.1]

/-- A whole number is within the bounds when the integer that it equals is. -/
theorem isWithinInt64_iff {x : Binary64} {n : Int} (hx : x.whole? = some n) :
    x.isWithinInt64 = true ↔ -2 ^ 63 ≤ n ∧ n < 2 ^ 63 := by
  have hstanding := whole?_eq_some_iff.mp hx
  have hnan : x ≠ .nan := by
    rintro rfl
    cases hx
  have hbound (negative : Bool) : int64Bound negative ≠ .nan := by
    intro h
    cases h
  unfold isWithinInt64
  rw [compare?_eq_some hnan (hbound true), compare?_eq_some hnan (hbound false), hstanding,
    standing_int64Bound_true, standing_int64Bound_false, compare_units_mul, compare_units_mul,
    Bool.and_eq_true, beq_iff_eq, Option.some_inj, Int.compare_eq_lt]
  show (compare n (-2 ^ 63)).isGE = true ∧ _ ↔ _
  rw [Int.isGE_compare]

/-- An integer within the bounds is not cut. -/
theorem int64OfInt?_eq_ofIntClamp {n : Int} (hlow : -2 ^ 63 ≤ n) (hhigh : n < 2 ^ 63) :
    int64OfInt? n = some (.ofIntClamp n) := by
  have hmin := Int64.toInt_minValue
  have hmax := Int64.toInt_maxValue
  rw [int64OfInt?_eq_some_iff, Int64.toInt_ofIntClamp (by omega) (by omega)]

/-- An integer out of range has no word of 64 bits. -/
theorem int64OfInt?_eq_none {n : Int} (h : ¬(-2 ^ 63 ≤ n ∧ n < 2 ^ 63)) : int64OfInt? n = none := by
  have hmin := Int64.toInt_minValue
  have hmax := Int64.toInt_maxValue
  unfold int64OfInt?
  rw [if_neg (by omega)]

/-- The test finds the integer of 64 bits that the number equals. -/
theorem exactInt64?_eq (x : Binary64) : x.exactInt64? = x.int64? := by
  cases x with
  | finite negative x =>
    by_cases hunits : x.units % Magnitude.unitsPerOne = 0
    · have hfraction : (finite negative x).fraction? = some 0 :=
        congrArg some (signed_eq_zero_iff.mpr hunits)
      have hwhole : (finite negative x).whole?
          = some (signed negative (x.units / Magnitude.unitsPerOne)) := by
        show x.whole?.map (signed negative) = _
        unfold Magnitude.whole?
        rw [if_pos hunits]
        rfl
      have hwithin := isWithinInt64_iff hwhole
      unfold exactInt64? int64?
      rw [hwhole]
      show _ = int64OfInt? _
      -- within the bounds the whole part is the number, and out of them neither side has an answer
      by_cases hrange : -2 ^ 63 ≤ signed negative (x.units / Magnitude.unitsPerOne)
          ∧ signed negative (x.units / Magnitude.unitsPerOne) < 2 ^ 63
      · rw [if_pos ⟨hfraction, hwithin.mpr hrange⟩, int64OfInt?_eq_ofIntClamp hrange.1 hrange.2]
        rfl
      · rw [if_neg fun hboth => hrange (hwithin.mp hboth.2), int64OfInt?_eq_none hrange]
    · have hwhole : (finite negative x).whole? = none := by
        show x.whole?.map (signed negative) = none
        unfold Magnitude.whole?
        rw [if_neg hunits]
        rfl
      have hfraction : (finite negative x).fraction? ≠ some 0 :=
        fun h => hunits (signed_eq_zero_iff.mp (Option.some_inj.mp h))
      rw [exactInt64?_eq_none_of_fraction? hfraction]
      unfold int64?
      rw [hwhole]
      rfl
  | infinite negative => exact exactInt64?_eq_none_of_fraction? (x := infinite negative) nofun
  | nan => exact exactInt64?_eq_none_of_fraction? (x := nan) nofun

/-- A number equals an integer of 64 bits when that is its exact value. -/
theorem int64?_eq_some_iff_value {x : Binary64} {i : Int64} :
    x.int64? = some i ↔ x.value? = some ↑(i.toInt : ℚ) := by
  have hint : (Cell.int i).standing.Denotes ↑(i.toInt : ℚ) := Cell.denotes_of_value? (a := .int i) rfl
  rw [int64?_eq_some_iff, ← Standing.compare_eq_iff]
  cases hvalue : x.value? with
  | none =>
    -- what is not a number ranks above all that has a value
    rw [value?_eq_none_iff.mp hvalue, Standing.compare_of_rank_gt hint.rank_lt]
    exact iff_of_false (by decide) nofun
  | some v =>
    have hx : x.standing.Denotes v := Cell.denotes_of_value? (a := .float x) hvalue
    rw [hx.compare_eq_eq_iff hint, Option.some_inj]

/-! ## §2. Words -/

/-- A word of 64 bits is its sign bit and the bits below. -/
theorem signBit_add {word : Nat} (h : word < 2 ^ 64) :
    (if decide (1 <<< 63 ≤ word) = true then 1 <<< 63 else 0) + word % (1 <<< 63) = word := by
  have hbit : 1 <<< 63 = 2 ^ 63 := by decide
  rw [hbit]
  by_cases hsign : 2 ^ 63 ≤ word
  · rw [decide_eq_true hsign, if_pos rfl]
    omega
  · rw [decide_eq_false hsign, if_neg Bool.false_ne_true]
    omega

/-- A word of 64 bits is the one of its number, unless it is not a number. -/
theorem toWord_ofWord {word : Nat} (hword : word < 2 ^ 64) (hnan : ¬IsNanWord word) :
    (ofWord word).toWord = word := by
  unfold IsNanWord at hnan
  unfold ofWord
  dsimp only
  by_cases hfinite : word % (1 <<< 63) < 2047 <<< 52
  · rw [dif_pos hfinite]
    exact signBit_add hword
  · -- above the finite words and no higher than the infinity there is the infinity only
    have hinfinite : word % (1 <<< 63) = 2047 <<< 52 := by omega
    rw [dif_neg hfinite, if_pos hinfinite]
    show _ + 2047 <<< 52 = word
    rw [← hinfinite]
    exact signBit_add hword

theorem ofWord_ne_nan {word : Nat} (hnan : ¬IsNanWord word) : ofWord word ≠ .nan := by
  unfold IsNanWord at hnan
  unfold ofWord
  dsimp only
  by_cases hfinite : word % (1 <<< 63) < 2047 <<< 52
  · rw [dif_pos hfinite]
    exact nofun
  · rw [dif_neg hfinite, if_pos (by omega)]
    exact nofun

end Binary64

/-! ## §3. Cells -/

namespace Cell

/-- What hashing a cell feeds is its key. -/
theorem hashBytes_eq_key (a : Cell) : a.hashBytes = a.key := by
  cases a with
  | absent => rfl
  | int i => rfl
  | float x =>
    have hexact := x.exactInt64?_eq
    cases hint : x.int64? with
    | some i =>
      rw [hint] at hexact
      simp only [hashBytes, key, hexact, hint]
      rfl
    | none =>
      rw [hint] at hexact
      simp only [hashBytes, key, hexact, hint, Binary64.isNan, decide_eq_true_eq]
  | text s => rfl

/-- The bytes fed to the hash are the same exactly for equal cells. -/
theorem hashBytes_eq_iff_beq (a b : Cell) : a.hashBytes = b.hashBytes ↔ (a == b) = true := by
  rw [hashBytes_eq_key, hashBytes_eq_key, key_eq_key_iff]

/-- A number that equals an integer of 64 bits is hashed as this integer. -/
theorem hashBytes_of_value? {x : Binary64} {i : Int64} (h : x.value? = some ↑(i.toInt : ℚ)) :
    (float x).hashBytes = (int i).hashBytes := by
  rw [hashBytes_eq_iff_beq, beq_iff_standing]
  exact Binary64.int64?_eq_some_iff.mp (Binary64.int64?_eq_some_iff_value.mpr h)

/-- A word that is a number, but not an integer of 64 bits, is hashed as it is. -/
theorem hashBytes_of_word {word : Nat} (hword : word < 2 ^ 64) (hnan : ¬Binary64.IsNanWord word)
    (hint : ∀ i : Int64, (Binary64.ofWord word).value? ≠ some ↑(i.toInt : ℚ)) :
    (float (.ofWord word)).hashBytes = 3 :: littleEndian 8 word := by
  have hnone : (Binary64.ofWord word).exactInt64? = none := by
    rw [Binary64.exactInt64?_eq, Option.eq_none_iff_forall_ne_some]
    exact fun i hi => hint i (Binary64.int64?_eq_some_iff_value.mp hi)
  have hisNan : (Binary64.ofWord word).isNan = false := decide_eq_false (Binary64.ofWord_ne_nan hnan)
  simp only [hashBytes, hnone, hisNan, Bool.false_eq_true, if_false, Binary64.toWord_ofWord hword hnan]

/-- Texts are of a rank that no number has and no absent cell. -/
theorem text_beq_eq_false {s : String} {a : Cell} (h : a = absent ∨ a.isNumeric = true) :
    ¬(text s == a) = true := by
  rw [beq_iff_standing]
  intro heq
  have hrank : 5 = a.standing.rank := congrArg Standing.rank heq
  rcases h with rfl | hnumeric
  · cases hrank
  · exact absurd hrank (Nat.ne_of_gt (rank_standing_of_isNumeric hnumeric).2)

/-- Two cells feed the same bytes exactly when they are equal, which is when they compare as equal.  So a
number that is exactly an integer of 64 bits is hashed as this integer, both zeros among them as `0`; all
words that are not a number are hashed alike, every other word by its bits; and no text is hashed as a
number or an absent cell. -/
theorem hashBytes_coincide :
    (∀ a b : Cell, (a.hashBytes = b.hashBytes ↔ (a == b) = true) ∧
      ((a == b) = true ↔ a.compareKinds b = .eq)) ∧
    (∀ (x : Binary64) (i : Int64), x.value? = some ↑(i.toInt : ℚ) →
      (float x).hashBytes = (int i).hashBytes) ∧
    ((float (.ofWord 0)).hashBytes = (int 0).hashBytes ∧
      (float (.ofWord (1 <<< 63))).hashBytes = (int 0).hashBytes) ∧
    (∀ word, Binary64.IsNanWord word → (float (.ofWord word)).hashBytes = [2]) ∧
    (∀ word < 2 ^ 64, ¬Binary64.IsNanWord word →
      (∀ i : Int64, (Binary64.ofWord word).value? ≠ some ↑(i.toInt : ℚ)) →
      (float (.ofWord word)).hashBytes = 3 :: littleEndian 8 word) ∧
    (∀ (s : String) (a : Cell), a = absent ∨ a.isNumeric = true → (text s).hashBytes ≠ a.hashBytes) := by
  have hzero (negative : Bool) : (float (.finite negative .zero)).hashBytes = (int 0).hashBytes := by
    -- the sign of a zero is lost in its integer, so both stand where `0` does
    rw [hashBytes_eq_iff_beq]
    cases negative <;> rfl
  refine ⟨fun a b => ⟨hashBytes_eq_iff_beq a b, ?_⟩, fun x i => hashBytes_of_value?,
    ⟨hzero false, hzero true⟩, fun word hnan => ?_, fun word => hashBytes_of_word, fun s a h => ?_⟩
  · rw [compareKinds_eq_compare]
    exact beq_iff_compare
  · rw [Binary64.ofWord_of_isNanWord hnan]
    rfl
  · rw [Ne, hashBytes_eq_iff_beq]
    exact text_beq_eq_false h

/-- Three as a number with a point, two words that are not a number, and one half. -/
theorem hashBytes_coincide_examples :
    (float (.ofWord 0x4008000000000000)).hashBytes = [1, 3, 0, 0, 0, 0, 0, 0, 0] ∧
    (float (.ofWord 0x7FF8000000000000)).hashBytes = (float (.ofWord 0xFFF0000000000001)).hashBytes ∧
    (float (.ofWord 0x3FE0000000000000)).hashBytes = [3, 0, 0, 0, 0, 0, 0, 0xE0, 0x3F] ∧
    (text "3").hashBytes ≠ (int 3).hashBytes := by
  obtain ⟨-, hwhole, -, hnan, hbits, htext⟩ := hashBytes_coincide
  have hthree : (Binary64.ofWord 0x4008000000000000).value? = some ↑((3 : Int64).toInt : ℚ) :=
    Binary64.int64?_eq_some_iff_value.mp (by decide +kernel)
  have hhalf : (Binary64.ofWord 0x3FE0000000000000).int64? = none := by decide +kernel
  refine ⟨(hwhole _ _ hthree).trans (by decide), ?_, ?_, htext "3" (int 3) (.inr rfl)⟩
  · rw [hnan 0x7FF8000000000000 (by unfold Binary64.IsNanWord; decide),
      hnan 0xFFF0000000000001 (by unfold Binary64.IsNanWord; decide)]
  · refine (hbits 0x3FE0000000000000 (by decide) (by unfold Binary64.IsNanWord; decide)
      fun i hi => ?_).trans (by decide)
    rw [← Binary64.int64?_eq_some_iff_value, hhalf] at hi
    cases hi

end Cell

end CsvQuery

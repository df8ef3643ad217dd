/-
  CsvQuery.Proofs.Table.IntegerKeys — integers as keys of joins and counts.

  The cell of a text that spells an integer is worth this integer if it has 64 bits, and else the correctly
  rounded binary64 number; an integer that is too great for one leaves the text as it is.  So two such cells
  are equal if the integers are worth the same, and two texts of integers that are too great if they are
  spelled alike.  An integer between `-2 ^ 63` and `2 ^ 63` is worth the same as no other one, since the
  others are exact as well, or are rounded and stay outside.

  Main results:
    • `IntegerWorth.unique`, `exists_integerWorth_iff` — what an integer is worth
    • `IntegerWorth.eq_of_small` — small integers are apart from all others
    • `Cell.infer_beq_iff_alike` — when cells of integers are equal
    • `Table.integer_keys_alike` — cells, joins and counts
-/
import CsvQuery.Proofs.Cell.Hash
import CsvQuery.Proofs.Cell.Infer
import CsvQuery.Proofs.Join.Merge
import CsvQuery.Proofs.Table.Counting

namespace CsvQuery

/-! ## §1. Integers as numerals -/

/-- The spelling of an integer is one of a numeral. -/
theorem SpellsInteger.exists_numeral {text : List Char} {n : Int} (h : SpellsInteger text n) :
    ∃ numeral, SpellsNumeral text numeral ∧ numeral.value = n.natAbs ∧
      signed numeral.negative n.natAbs = n := by
  cases h with
  | @digits negative sign digits hsign hne hdigits =>
    refine ⟨⟨negative, digits, [], 0⟩, ?_, ?_, ?_⟩
    · have hspells := SpellsNumeral.whole hsign hne hdigits .none
      rwa [List.append_nil] at hspells
    · rw [natAbs_signed]
      simp [Numeral.value]
    · rw [natAbs_signed]

/-- The sign of a number that is not zero. -/
theorem negative_of_signed {negative : Bool} {k : Nat} {n : Int} (h : signed negative k = n)
    (hn : n ≠ 0) : negative = decide (n < 0) := by
  cases negative with
  | false =>
    have hk : (k : Int) = n := h
    rw [eq_comm, decide_eq_false_iff_not]
    omega
  | true =>
    have hk : -(k : Int) = n := h
    rw [eq_comm, decide_eq_true_iff]
    omega

/-! ## §2. What integers are worth -/

/-- An integer of 64 bits is worth itself, and any other one the correctly rounded number. -/
inductive IntegerWorth : Int → ℚ → Prop where
  | exact (i : Int64) : IntegerWorth i.toInt i.toInt
  | rounded {n : Int} {x : Magnitude} (outside : ∀ i : Int64, n ≠ i.toInt)
      (nearest : x.IsNearest n.natAbs) : IntegerWorth n (if n < 0 then -x.value else x.value)

theorem exists_toInt_eq {n : Int} (hlow : -2 ^ 63 ≤ n) (hhigh : n < 2 ^ 63) :
    ∃ i : Int64, n = i.toInt :=
  ⟨_, int64OfInt?_eq_some_iff.mp (Binary64.int64OfInt?_eq_ofIntClamp hlow hhigh)⟩

theorem value_int64Bound : Magnitude.int64Bound.value = 2 ^ 63 := by
  rw [Magnitude.value_eq, Binary64.units_int64Bound, Nat.cast_mul, mul_assoc, unitsPerOne_mul, mul_one,
    Nat.cast_pow, Nat.cast_ofNat]

theorem two_pow_lt_overflow : 2 ^ 63 < Magnitude.overflow := by
  have hnearest : Magnitude.nearest? (2 ^ 63) 1 = some .int64Bound := by decide +kernel
  have hrange := ((Magnitude.nearest?_eq_some_iff Nat.one_pos).mp hnearest).inRange
  rwa [Nat.cast_pow, Nat.cast_ofNat, Nat.cast_one, div_one] at hrange

/-- No integer of 64 bits is too great. -/
theorem natAbs_toInt_lt_overflow (i : Int64) : (i.toInt.natAbs : ℚ) < Magnitude.overflow := by
  have hle := i.le_toInt
  have hlt := i.toInt_lt
  have habs : i.toInt.natAbs ≤ 2 ^ 63 := by omega
  calc (i.toInt.natAbs : ℚ) ≤ (2 ^ 63 : ℕ) := Nat.cast_le.mpr habs
    _ = 2 ^ 63 := by rw [Nat.cast_pow, Nat.cast_ofNat]
    _ < Magnitude.overflow := two_pow_lt_overflow

/-- An integer is worth no two numbers. -/
theorem IntegerWorth.unique {n : Int} {u v : ℚ} (hu : IntegerWorth n u) (hv : IntegerWorth n v) :
    u = v := by
  generalize hm : n = m at hv
  -- the integer alone decides in which of the two ways it is worth something
  cases hu with
  | exact i =>
    cases hv with
    | exact j => rw [hm]
    | rounded outside nearest => exact absurd hm.symm (outside i)
  | rounded outside nearest =>
    cases hv with
    | exact j => exact absurd hm (outside j)
    | rounded outside' nearest' =>
      subst hm
      rw [nearest.unique nearest']

/-- An integer is worth something unless it is too great. -/
theorem exists_integerWorth_iff {n : Int} :
    (∃ v, IntegerWorth n v) ↔ (n.natAbs : ℚ) < Magnitude.overflow := by
  constructor
  · rintro ⟨v, hv⟩
    cases hv with
    | exact i => exact natAbs_toInt_lt_overflow i
    | rounded outside nearest => exact nearest.inRange
  · intro h
    by_cases hin : ∃ i : Int64, n = i.toInt
    · obtain ⟨i, rfl⟩ := hin
      exact ⟨_, .exact i⟩
    · cases hnearest : Magnitude.nearest? n.natAbs 1 with
      | none =>
        have hle := (Magnitude.nearest?_eq_none_iff Nat.one_pos).mp hnearest
        rw [Nat.cast_one, div_one] at hle
        exact absurd h (not_lt.mpr hle)
      | some x =>
        have hx := (Magnitude.nearest?_eq_some_iff Nat.one_pos).mp hnearest
        rw [Nat.cast_one, div_one] at hx
        exact ⟨_, .rounded (not_exists.mp hin) hx⟩

/-- Past 64 bits, rounding does not come back below `2 ^ 63`. -/
theorem two_pow_le_value {n : Int} {x : Magnitude} (houtside : ∀ i : Int64, n ≠ i.toInt)
    (hx : x.IsNearest n.natAbs) : 2 ^ 63 ≤ x.value := by
  have habs : 2 ^ 63 ≤ n.natAbs := by
    refine Nat.le_of_not_lt fun hlt => ?_
    obtain ⟨i, hi⟩ := exists_toInt_eq (n := n) (by omega) (by omega)
    exact houtside i hi
  rw [← value_int64Bound]
  refine hx.le_value ?_
  rw [value_int64Bound]
  exact_mod_cast habs

/-- A small integer is worth the same as no other one. -/
theorem IntegerWorth.eq_of_small {m n : Int} {v : ℚ} (hm : IntegerWorth m v) (hn : IntegerWorth n v)
    (hsmall : m.natAbs < 2 ^ 63) : m = n := by
  obtain ⟨i, rfl⟩ := exists_toInt_eq (n := m) (by omega) (by omega)
  obtain rfl := hm.unique (.exact i)
  have hlow : (-2 ^ 63 : ℚ) < i.toInt := by
    have : -2 ^ 63 < i.toInt := by omega
    exact_mod_cast this
  have hhigh : (i.toInt : ℚ) < 2 ^ 63 := by
    have : i.toInt < 2 ^ 63 := by omega
    exact_mod_cast this
  -- the other one is exact as well, or is rounded and stays outside
  generalize hv : (i.toInt : ℚ) = v at hn hlow hhigh
  cases hn with
  | exact j => exact Int.cast_injective hv
  | rounded outside nearest =>
    have hle := two_pow_le_value outside nearest
    by_cases hnegative : n < 0
    · rw [if_pos hnegative] at hlow
      linarith
    · rw [if_neg hnegative] at hhigh
      linarith

/-- Two texts of integers are alike: the integers are worth the same, or are too great and spelled alike. -/
def Alike (a b : String) (m n : Int) : Prop :=
  (∃ v, IntegerWorth m v ∧ IntegerWorth n v) ∨ Magnitude.overflow ≤ m.natAbs ∧ a = b

/-! ## §3. Cells -/

namespace Cell

variable {a b : String} {m n : Int}

/-- The cell of an integer is worth what the integer is. -/
theorem value?_infer (ha : SpellsInteger a.toList m) {v : ℚ} (hv : IntegerWorth m v) :
    (infer a).value? = some ↑v := by
  cases hv with
  | exact i =>
    rw [infer_eq_int_iff.mpr ha]
    rfl
  | @rounded _ x outside nearest =>
    obtain ⟨numeral, hspells, hvalue, hsigned⟩ := ha.exists_numeral
    have hnegative := negative_of_signed hsigned (outside 0)
    have hinfer : infer a = float (.finite numeral.negative x) := by
      refine infer_eq_float_iff.mpr ⟨fun i hi => outside i (ha.unique hi), numeral, x, hspells, ?_, rfl⟩
      rwa [hvalue]
    rw [hinfer, hnegative]
    show some _ = some _
    simp only [decide_eq_true_eq]

/-- The text of an integer that is too great stays. -/
theorem infer_of_overflow (ha : SpellsInteger a.toList m) (h : Magnitude.overflow ≤ m.natAbs) :
    infer a = text a := by
  obtain ⟨numeral, hspells, hvalue, -⟩ := ha.exists_numeral
  refine infer_eq_text_iff.mpr ⟨rfl, fun i hi => ?_, fun other hother => ?_⟩
  · have hlt := natAbs_toInt_lt_overflow i
    rw [← ha.unique hi] at hlt
    exact absurd h (not_le.mpr hlt)
  · rwa [hother.unique hspells, hvalue]

/-- Only numbers have values. -/
theorem isNumeric_of_value? {c : Cell} {v : ExactValue} (h : c.value? = some v) :
    c.isNumeric = true := by
  cases c with
  | absent => cases h
  | int i => rfl
  | float x => rfl
  | text s => cases h

/-- Cells of integers that are worth something are equal exactly if these are worth the same. -/
theorem infer_beq_iff_of_worth (ha : SpellsInteger a.toList m) (hb : SpellsInteger b.toList n) {u v : ℚ}
    (hu : IntegerWorth m u) (hv : IntegerWorth n v) : (infer a == infer b) = true ↔ u = v := by
  have hcompare : compare (infer a) (infer b) = .eq ↔ (↑u : ExactValue) = ↑v :=
    (denotes_of_value? (value?_infer ha hu)).compare_eq_eq_iff
      (denotes_of_value? (value?_infer hb hv))
  rw [beq_iff_compare, hcompare, WithBotTop.coe_injective.eq_iff]

/-- A text that stays is equal to no cell of an integer that is worth something. -/
theorem text_beq_infer (hb : SpellsInteger b.toList n) {v : ℚ} (hv : IntegerWorth n v) (s : String) :
    ¬(text s == infer b) = true :=
  text_beq_eq_false (.inr (isNumeric_of_value? (value?_infer hb hv)))

/-- The cells of two texts of integers are equal exactly if these are alike. -/
theorem infer_beq_iff_alike (ha : SpellsInteger a.toList m) (hb : SpellsInteger b.toList n) :
    (infer a == infer b) = true ↔ Alike a b m n := by
  have hgreat {k : Int} (hk : Magnitude.overflow ≤ k.natAbs) (v : ℚ) : ¬IntegerWorth k v := fun hv =>
    absurd (exists_integerWorth_iff.mp ⟨v, hv⟩) (not_lt.mpr hk)
  unfold Alike
  rcases lt_or_ge (m.natAbs : ℚ) Magnitude.overflow with hm | hm
  · obtain ⟨u, hu⟩ := exists_integerWorth_iff.mpr hm
    rw [or_iff_left fun h => absurd h.1 (not_le.mpr hm)]
    rcases lt_or_ge (n.natAbs : ℚ) Magnitude.overflow with hn | hn
    · -- two numbers
      obtain ⟨v, hv⟩ := exists_integerWorth_iff.mpr hn
      rw [infer_beq_iff_of_worth ha hb hu hv]
      constructor
      · rintro rfl
        exact ⟨u, hu, hv⟩
      · rintro ⟨w, hwm, hwn⟩
        exact (hu.unique hwm).trans (hwn.unique hv)
    · -- a number and a text
      rw [infer_of_overflow hb hn]
      exact iff_of_false (fun h => text_beq_infer ha hu b (BEq.symm h))
        fun ⟨w, _, hw⟩ => hgreat hn w hw
  · rw [or_iff_right fun ⟨w, hw, _⟩ => hgreat hm w hw, and_iff_right hm, infer_of_overflow ha hm]
    rcases lt_or_ge (n.natAbs : ℚ) Magnitude.overflow with hn | hn
    · -- a text and a number; one text is not both
      obtain ⟨v, hv⟩ := exists_integerWorth_iff.mpr hn
      refine iff_of_false (text_beq_infer hb hv a) ?_
      rintro rfl
      rw [ha.unique hb] at hm
      exact absurd hn (not_lt.mpr hm)
    · rw [infer_of_overflow hb hn, beq_iff_compare, compare_text_eq_eq_iff]

/-- Integers of 64 bits have equal cells only if they are the same. -/
theorem infer_beq_iff_of_int64 {i j : Int64} (ha : SpellsInteger a.toList i.toInt)
    (hb : SpellsInteger b.toList j.toInt) : (infer a == infer b) = true ↔ i.toInt = j.toInt := by
  rw [infer_beq_iff_of_worth ha hb (.exact i) (.exact j), Int.cast_inj]

/-- A small integer has a cell that is equal to those of no other integer. -/
theorem infer_beq_iff_of_small (ha : SpellsInteger a.toList m) (hb : SpellsInteger b.toList n)
    (hsmall : m.natAbs < 2 ^ 63) : (infer a == infer b) = true ↔ m = n := by
  rw [infer_beq_iff_alike ha hb]
  constructor
  · -- alike for either reason, they are the same
    rintro (⟨v, hm, hn⟩ | ⟨-, rfl⟩)
    · exact hm.eq_of_small hn hsmall
    · exact ha.unique hb
  · rintro rfl
    obtain ⟨i, rfl⟩ := exists_toInt_eq (n := m) (by omega) (by omega)
    exact .inl ⟨_, .exact i, .exact i⟩

/-- One integer has equal cells in all its spellings, unless it is too great. -/
theorem infer_beq_of_lt_overflow (ha : SpellsInteger a.toList m) (hb : SpellsInteger b.toList m)
    (hm : (m.natAbs : ℚ) < Magnitude.overflow) : (infer a == infer b) = true := by
  obtain ⟨v, hv⟩ := exists_integerWorth_iff.mpr hm
  exact (infer_beq_iff_of_worth ha hb hv hv).mpr rfl

end Cell

/-! ## §4. Joins and counts -/

/-- Both joins find the same pairs. -/
theorem mem_sortMergePairs {p q : Nat} {left right : List Row} {pair : Row × Row} :
    pair ∈ sortMergePairs p q left right ↔ pair ∈ hashPairs p q left right := by
  rw [sortMergePairs_eq_equalPairs, hashPairs_eq_equalPairs]
  exact (equalPairs_perm_left (List.mergeSort_perm _ _) right).mem_iff

/-- Cells count for one entry exactly if they are equal. -/
theorem IsTally.exists_common_iff {cells : List Cell} {entries : List (Cell × Nat)}
    (h : IsTally cells entries) {a b : Cell} (ha : a ∈ cells) :
    (∃ value ∈ entries.map Prod.fst, (value == a) = true ∧ (value == b) = true) ↔
      (a == b) = true := by
  constructor
  · rintro ⟨value, -, hvalue, hother⟩
    exact BEq.trans (BEq.symm hvalue) hother
  · intro hab
    obtain ⟨value, hmem, hvalue⟩ := h.covers a ha
    exact ⟨value, hmem, hvalue, BEq.trans hvalue hab⟩

namespace Table

open Cell (infer)

/-- Two texts of integers have equal cells exactly if they are alike, and so rows with these cells meet in a
join, or count for one entry, exactly if the texts are alike.  Where both integers have 64 bits, or one of
them is between `-2 ^ 63` and `2 ^ 63`, this is so exactly if they are the same.  All spellings of an integer
have equal cells unless it is too great for a binary64 number. -/
theorem integer_keys_alike {a b : String} {m n : Int} (ha : SpellsInteger a.toList m)
    (hb : SpellsInteger b.toList n) :
    ((infer a == infer b) = true ↔ Alike a b m n) ∧
    (∀ i j : Int64, m = i.toInt → n = j.toInt → ((infer a == infer b) = true ↔ m = n)) ∧
    (m.natAbs < 2 ^ 63 → ((infer a == infer b) = true ↔ m = n)) ∧
    (m = n → (m.natAbs : ℚ) < Magnitude.overflow → (infer a == infer b) = true) ∧
    (∀ (p q : Nat) (left right : List Row), ∀ l ∈ left, ∀ r ∈ right,
      l.cell p = infer a → r.cell q = infer b →
      ((l, r) ∈ hashPairs p q left right ↔ Alike a b m n) ∧
      ((l, r) ∈ sortMergePairs p q left right ↔ Alike a b m n)) ∧
    ∀ (table : Table) (column : String) (position : Nat), IsLastPosition column table.columns position →
      ∀ l ∈ table.rows, ∀ r ∈ table.rows, l.cell position = infer a → r.cell position = infer b →
      ((∃ value ∈ (table.counts column).map Prod.fst,
        (value == infer a) = true ∧ (value == infer b) = true) ↔ Alike a b m n) := by
  have hequal := Cell.infer_beq_iff_alike ha hb
  refine ⟨hequal, ?_, Cell.infer_beq_iff_of_small ha hb, ?_, ?_, ?_⟩
  · rintro i j rfl rfl
    exact Cell.infer_beq_iff_of_int64 ha hb
  · rintro rfl hm
    exact Cell.infer_beq_of_lt_overflow ha hb hm
  · intro p q left right l hl r hr hleft hright
    have hpairs : (l, r) ∈ hashPairs p q left right ↔ Alike a b m n := by
      rw [hashPairs_eq_equalPairs, mem_equalPairs, and_iff_right hl, and_iff_right hr, hleft, hright,
        hequal]
    exact ⟨hpairs, mem_sortMergePairs.trans hpairs⟩
  · intro table column position hposition l hl r _ hleft _
    have htally := isTally_counts (lastPosition_eq_some_iff.mpr hposition)
    have hcounted := List.mem_map_of_mem (f := fun row : Row => row.cell position) hl
    rw [hleft] at hcounted
    rw [htally.exists_common_iff hcounted, hequal]

/-- Two integers past 64 bits that are rounded alike meet, and so do all spellings of one. -/
theorem integer_keys_alike_rounded :
    SpellsInteger "9223372036854775808".toList 9223372036854775808 ∧
    SpellsInteger "9223372036854775809".toList 9223372036854775809 ∧
    Alike "9223372036854775808" "9223372036854775809" 9223372036854775808 9223372036854775809 ∧
    (([infer "9223372036854775808"], [infer "9223372036854775809"]) : Row × Row)
      ∈ sortMergePairs 0 0 [[infer "9223372036854775808"]] [[infer "9223372036854775809"]] ∧
    (∃ value ∈ ((⟨["k"], [[infer "9223372036854775808"], [infer "9223372036854775809"]]⟩ : Table).counts
        "k").map Prod.fst,
      (value == infer "9223372036854775808") = true ∧ (value == infer "9223372036854775809") = true) ∧
    (infer "9223372036854775808" == infer "+09223372036854775808") = true ∧
    ¬(infer "-7" == infer "+007") = true ∧ (infer "7" == infer "+007") = true := by
  have hfirst : SpellsInteger "9223372036854775808".toList 9223372036854775808 :=
    integer?_eq_some_iff.mp (by decide +kernel)
  have hsecond : SpellsInteger "9223372036854775809".toList 9223372036854775809 :=
    integer?_eq_some_iff.mp (by decide +kernel)
  have hlonger : SpellsInteger "+09223372036854775808".toList 9223372036854775808 :=
    integer?_eq_some_iff.mp (by decide +kernel)
  have hminus : SpellsInteger "-7".toList (-7) := integer?_eq_some_iff.mp (by decide +kernel)
  have hseven : SpellsInteger "7".toList 7 := integer?_eq_some_iff.mp (by decide +kernel)
  have hplus : SpellsInteger "+007".toList 7 := integer?_eq_some_iff.mp (by decide +kernel)
  have hlast : IsLastPosition "k" ["k"] 0 := isLastPosition_of_lastPosition (by decide +kernel)
  have hrange : (((9223372036854775808 : Int).natAbs : ℕ) : ℚ) < Magnitude.overflow :=
    lt_of_eq_of_lt (by norm_num) two_pow_lt_overflow
  have hcell (cell : Cell) : Row.cell [cell] 0 = cell := rfl
  let left : Row := [infer "9223372036854775808"]
  let right : Row := [infer "9223372036854775809"]
  obtain ⟨hequal, -, -, -, hjoin, hcount⟩ := integer_keys_alike hfirst hsecond
  have halike := hequal.mp (by decide +kernel)
  refine ⟨hfirst, hsecond, halike, ?_, ?_, ?_, ?_, ?_⟩
  · exact (hjoin 0 0 [left] [right] left List.mem_cons_self right List.mem_cons_self (hcell _)
      (hcell _)).2.mpr halike
  · exact (hcount ⟨["k"], [left, right]⟩ "k" 0 hlast left List.mem_cons_self right
      (List.mem_cons_of_mem left List.mem_cons_self) (hcell _) (hcell _)).mpr halike
  · exact (integer_keys_alike hfirst hlonger).2.2.2.1 rfl hrange
  · rw [(integer_keys_alike hminus hplus).2.2.1 (by decide)]
    decide
  · exact ((integer_keys_alike hseven hplus).2.1 7 7 (by decide) (by decide)).mpr rfl

/-- The cells do not tell apart two integers that are rounded to `2 ^ 63`, nor the least one of 64 bits and
the one before it.  They tell apart two spellings of `10 ^ 309`. -/
theorem integer_keys_conflated :
    (SpellsInteger "9223372036854775808".toList 9223372036854775808 ∧
      SpellsInteger "9223372036854775809".toList 9223372036854775809 ∧
      ¬((infer "9223372036854775808" == infer "9223372036854775809") = true ↔
        (9223372036854775808 : Int) = 9223372036854775809)) ∧
    (SpellsInteger "-9223372036854775808".toList (-9223372036854775808) ∧
      SpellsInteger "-9223372036854775809".toList (-9223372036854775809) ∧
      ¬((infer "-9223372036854775808" == infer "-9223372036854775809") = true ↔
        (-9223372036854775808 : Int) = -9223372036854775809)) ∧
    let short := String.ofList ('1' :: List.replicate 309 '0')
    let long := String.ofList ('0' :: '1' :: List.replicate 309 '0')
    SpellsInteger short.toList (10 ^ 309) ∧ SpellsInteger long.toList (10 ^ 309) ∧
      ¬((infer short == infer long) = true ↔ (10 ^ 309 : Int) = 10 ^ 309) := by
  refine ⟨⟨integer?_eq_some_iff.mp (by decide +kernel), integer?_eq_some_iff.mp (by decide +kernel),
      by decide +kernel⟩,
    ⟨integer?_eq_some_iff.mp (by decide +kernel), integer?_eq_some_iff.mp (by decide +kernel),
      by decide +kernel⟩, ?_⟩
  intro short long
  have hshort : SpellsInteger short.toList (10 ^ 309) := by
    rw [String.toList_ofList]
    exact integer?_eq_some_iff.mp (by decide +kernel)
  have hlong : SpellsInteger long.toList (10 ^ 309) := by
    rw [String.toList_ofList]
    exact integer?_eq_some_iff.mp (by decide +kernel)
  have hgreat : Magnitude.overflow ≤ ((10 ^ 309 : Int).natAbs : ℕ) := by
    have hnone : Magnitude.nearest? (10 ^ 309 : Int).natAbs 1 = none := by decide +kernel
    have hle := (Magnitude.nearest?_eq_none_iff Nat.one_pos).mp hnone
    rwa [Nat.cast_one, div_one] at hle
  have hspellings : short ≠ long := fun heq => absurd (String.ofList_injective heq) (by decide)
  refine ⟨hshort, hlong, fun hiff => hspellings ?_⟩
  have hequal := hiff.mpr rfl
  rwa [Cell.infer_of_overflow hshort hgreat, Cell.infer_of_overflow hlong hgreat, Cell.beq_iff_compare,
    Cell.compare_text_eq_eq_iff] at hequal

end Table

end CsvQuery

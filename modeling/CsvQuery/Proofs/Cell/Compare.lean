/-
  CsvQuery.Proofs.Cell.Compare — comparing kind by kind is the order of standings.

  Words with a sign are ordered as the numbers that they name, so two binary64 numbers compare as their
  standings do.  An integer is only rounded for the comparison with a number that has a fraction.  Such a
  number is below `2 ^ 52`, where integers are not rounded, and one that is rounded stays on its side.

  Main result:
    • `Cell.compareKinds_eq_compare` — one order, whichever way it is computed
-/
import Mathlib.Algebra.Group.Int.Defs
import CsvQuery.Cell.Compare
import CsvQuery.Proofs.Cell.Key
import CsvQuery.Proofs.Number.Rounding

namespace CsvQuery

/-! ## §1. Integers and standings -/

/-- Two comparisons of integers agree where the order and the equality of both do. -/
theorem compare_congr {a b c d : Int} (hlt : a < b ↔ c < d) (heq : a = b ↔ c = d) :
    compare a b = compare c d := by
  simp only [compare, compareOfLessAndEq, hlt, heq]

/-- Words compare as the integers that they stand for. -/
theorem Int64.compare_eq_toInt (i j : Int64) : compare i j = compare i.toInt j.toInt := by
  simp only [compare, compareOfLessAndEq, Int64.lt_iff_toInt_lt, ← Int64.toInt_inj]

namespace Standing

/-- A lower rank decides. -/
theorem compare_of_rank_lt {s t : Standing} (h : s.rank < t.rank) : compare s t = .lt := by
  show order s t = .lt
  simp only [order, compareLex, compareOn, Nat.compare_eq_lt.mpr h, Ordering.then]

theorem compare_of_rank_gt {s t : Standing} (h : t.rank < s.rank) : compare s t = .gt := by
  rw [Std.OrientedCmp.gt_iff_lt]
  exact compare_of_rank_lt h

/-- Standings of one rank without bytes compare by their values. -/
theorem compare_units (rank : Nat) (m n : Int) :
    compare (⟨rank, m, []⟩ : Standing) ⟨rank, n, []⟩ = compare m n := by
  show order ⟨rank, m, []⟩ ⟨rank, n, []⟩ = compare m n
  simp only [order, compareLex, compareOn, Std.ReflCmp.compare_self, Ordering.then]
  cases compare m n <;> rfl

/-- Standings of one rank without value compare by their bytes. -/
theorem compare_bytes (rank : Nat) (s t : List UInt8) :
    compare (⟨rank, 0, s⟩ : Standing) ⟨rank, 0, t⟩ = compare s t := by
  show order ⟨rank, 0, s⟩ ⟨rank, 0, t⟩ = compare s t
  simp only [order, compareLex, compareOn, Std.ReflCmp.compare_self, Ordering.then]

end Standing

/-! ## §2. Two binary64 numbers -/

namespace Magnitude

variable {x y : Magnitude}

/-- Magnitudes are in order as their words are. -/
theorem units_lt_iff : x.units < y.units ↔ x.word < y.word := by
  constructor
  · intro h
    rcases Nat.lt_trichotomy x.word y.word with hlt | heq | hgt
    · exact hlt
    · have hxy : x = y := by
        cases x
        cases y
        simpa using heq
      rw [hxy] at h
      omega
    · have := units_lt_units hgt
      omega
  · exact units_lt_units

theorem units_eq_iff : x.units = y.units ↔ x.word = y.word := by
  rw [units_inj]
  cases x
  cases y
  simp

theorem units_eq_zero_iff : x.units = 0 ↔ x.word = 0 := by
  have hzero : zero.units = 0 := by decide
  rw [← hzero]
  exact units_eq_iff

end Magnitude

/-- Signed numbers are in order as others of the same signs whose absolute values are in the same order. -/
theorem signed_lt_signed_iff {a b : Bool} {m n m' n' : Nat} (hlt : m < n ↔ m' < n')
    (hgt : n < m ↔ n' < m') (hm : m = 0 ↔ m' = 0) (hn : n = 0 ↔ n' = 0) :
    signed a m < signed b n ↔ signed a m' < signed b n' := by
  cases a <;> cases b <;> simp only [signed] <;> grind

/-- Signed numbers are equal when others of the same signs are whose absolute values are equal together with
theirs. -/
theorem signed_eq_signed_iff {a b : Bool} {m n m' n' : Nat} (heq : m = n ↔ m' = n')
    (hm : m = 0 ↔ m' = 0) (hn : n = 0 ↔ n' = 0) :
    signed a m = signed b n ↔ signed a m' = signed b n' := by
  cases a <;> cases b <;> simp only [signed] <;> grind

namespace Binary64

/-- The words of finite numbers lie between those of the infinities. -/
theorem signed_word_bounds (negative : Bool) (x : Magnitude) :
    signed true (2047 <<< 52) < signed negative x.word ∧
      signed negative x.word < signed false (2047 <<< 52) := by
  have := x.word_lt
  cases negative <;> simp [signed] <;> omega

/-- Words with a sign are ordered as the values that they name. -/
theorem compare_words (a b : Bool) (x y : Magnitude) :
    compare (signed a x.word) (signed b y.word)
      = compare (signed a x.units) (signed b y.units) := by
  apply compare_congr
  · exact (signed_lt_signed_iff Magnitude.units_lt_iff Magnitude.units_lt_iff
      Magnitude.units_eq_zero_iff Magnitude.units_eq_zero_iff).symm
  · exact (signed_eq_signed_iff Magnitude.units_eq_iff Magnitude.units_eq_zero_iff
      Magnitude.units_eq_zero_iff).symm

variable {x y : Binary64}

/-- Numbers other than not-a-number compare as their standings. -/
theorem compare?_eq_some (hx : x ≠ .nan) (hy : y ≠ .nan) :
    x.compare? y = some (compare x.standing y.standing) := by
  -- an infinity is beyond all finite numbers both by its word and by its rank
  cases x with
  | finite a x =>
    have hbounds := signed_word_bounds a x
    cases y with
    | finite b y =>
      show some (compare (signed a x.word) (signed b y.word)) = _
      rw [compare_words]
      exact congrArg some (Standing.compare_units 2 _ _).symm
    | infinite b =>
      cases b with
      | true =>
        show some (compare (signed a x.word) (signed true (2047 <<< 52))) = _
        rw [Int.compare_eq_gt.mpr hbounds.1, Standing.compare_of_rank_gt Nat.one_lt_two]
      | false =>
        show some (compare (signed a x.word) (signed false (2047 <<< 52))) = _
        rw [Int.compare_eq_lt.mpr hbounds.2, Standing.compare_of_rank_lt (Nat.lt_succ_self 2)]
    | nan => exact absurd rfl hy
  | infinite a =>
    cases y with
    | finite b y =>
      have hbounds := signed_word_bounds b y
      cases a with
      | true =>
        show some (compare (signed true (2047 <<< 52)) (signed b y.word)) = _
        rw [Int.compare_eq_lt.mpr hbounds.1, Standing.compare_of_rank_lt Nat.one_lt_two]
      | false =>
        show some (compare (signed false (2047 <<< 52)) (signed b y.word)) = _
        rw [Int.compare_eq_gt.mpr hbounds.2, Standing.compare_of_rank_gt (Nat.lt_succ_self 2)]
    | infinite b => cases a <;> cases b <;> rfl
    | nan => exact absurd rfl hy
  | nan => exact absurd rfl hx

theorem rank_standing_lt (h : x ≠ .nan) : x.standing.rank < 4 := by
  cases x with
  | finite negative x => exact (by decide : 2 < 4)
  | infinite negative => cases negative <;> decide
  | nan => exact absurd rfl h

/-- All numbers compare as their standings. -/
theorem compareAny_eq (x y : Binary64) : x.compareAny y = compare x.standing y.standing := by
  by_cases hx : x = .nan
  · by_cases hy : y = .nan
    · rw [hx, hy]
      decide
    · have hrank : y.standing.rank < (Binary64.nan).standing.rank := rank_standing_lt hy
      rw [hx, Standing.compare_of_rank_gt hrank]
      show compare true (decide (y = .nan)) = .gt
      rw [decide_eq_false hy]
      rfl
  · by_cases hy : y = .nan
    · have hrank : x.standing.rank < (Binary64.nan).standing.rank := rank_standing_lt hx
      rw [hy, Standing.compare_of_rank_lt hrank]
      have hnone : x.compare? .nan = none := by
        unfold compare?
        split
        next heq => cases heq
        next => rfl
      unfold compareAny
      rw [hnone]
      show compare (decide (x = .nan)) true = .lt
      rw [decide_eq_false hx]
      rfl
    · unfold compareAny
      rw [compare?_eq_some hx hy]
      rfl

/-! ## §3. An integer and a binary64 number -/

theorem ofRounded_ne_nan (negative : Bool) (x : Option Magnitude) : ofRounded negative x ≠ .nan := by
  intro h
  cases x <;> cases h

theorem ofInt_ne_nan (n : Int) : ofInt n ≠ .nan := ofRounded_ne_nan _ _

/-- The bound is `2 ^ 63`, exactly. -/
theorem units_int64Bound : Magnitude.int64Bound.units = 2 ^ 63 * Magnitude.unitsPerOne := by
  decide +kernel

/-- Both bounds stand where `2 ^ 63` stands, with their sign. -/
theorem standing_int64Bound (negative : Bool) :
    (int64Bound negative).standing = ⟨2, signed negative (2 ^ 63 * Magnitude.unitsPerOne), []⟩ := by
  rw [← units_int64Bound]
  rfl

/-- An integer is its absolute value with its sign. -/
theorem signed_natAbs (n : Int) : signed (decide (n < 0)) n.natAbs = n := by
  by_cases h : n < 0
  · rw [decide_eq_true h]
    simp only [signed, if_true]
    omega
  · rw [decide_eq_false h]
    show (n.natAbs : Int) = n
    omega

/-- Two numbers of one sign that are both further from zero than a third compare alike with it. -/
theorem compare_signed_of_lt {a b : Bool} {k m n : Nat} (hk : n < k) (hm : n < m) :
    compare (signed a m) (signed b n) = compare (signed a k) (signed b n) := by
  apply compare_congr
  · cases a <;> cases b <;> simp [signed] <;> omega
  · cases a <;> cases b <;> simp [signed] <;> omega

/-- Rounding an integer does not move it past a number with a fraction. -/
theorem compare_standing_ofInt {n : Int} (hn : n.natAbs ≤ 2 ^ 63) {negative : Bool} {x : Magnitude}
    (hx : x.whole? = none) :
    compare (ofInt n).standing (finite negative x).standing
      = compare (⟨2, n * Magnitude.unitsPerOne, []⟩ : Standing) (finite negative x).standing := by
  have hlt : n.natAbs < 1 * 2 ^ 64 := by omega
  obtain ⟨m, hm⟩ := Magnitude.exists_nearest?_of_lt (by omega) Nat.one_pos hlt
  have hofInt : ofInt n = finite (decide (n < 0)) m := by
    unfold ofInt
    rw [hm]
    rfl
  have hsmall := Magnitude.units_lt_of_whole?_eq_none hx
  have hsign : signed (decide (n < 0)) (n.natAbs * Magnitude.unitsPerOne)
      = n * Magnitude.unitsPerOne := by
    rw [signed_mul, signed_natAbs]
  rw [hofInt]
  show compare (⟨2, signed (decide (n < 0)) m.units, []⟩ : Standing) ⟨2, signed negative x.units, []⟩
    = compare (⟨2, n * Magnitude.unitsPerOne, []⟩ : Standing) ⟨2, signed negative x.units, []⟩
  rw [Standing.compare_units, Standing.compare_units, ← hsign]
  rcases Nat.lt_or_ge 1074 (Magnitude.binade n.natAbs 1) with hrounded | hexact
  · -- both the integer and what it is rounded to are further from zero than the number
    obtain ⟨hlarge, hrounded⟩ := Magnitude.le_units_of_nearest?_one hrounded hm
    exact compare_signed_of_lt (by omega) (by omega)
  · rw [Magnitude.units_of_nearest?_one hexact hm]

theorem compare_units_mul (m n : Int) :
    compare (⟨2, m * Magnitude.unitsPerOne, []⟩ : Standing) ⟨2, n * Magnitude.unitsPerOne, []⟩
      = compare m n := by
  have hpos : (0 : Int) < Magnitude.unitsPerOne := Int.natCast_pos.mpr Magnitude.unitsPerOne_pos
  rw [Standing.compare_units]
  apply compare_congr
  · exact Int.mul_lt_mul_right hpos
  · exact Int.mul_eq_mul_right_iff (Int.ne_of_gt hpos)

theorem standing_int64Bound_true :
    (int64Bound true).standing = ⟨2, (-2 ^ 63 : Int) * Magnitude.unitsPerOne, []⟩ := by
  rw [standing_int64Bound, signed_mul]
  rfl

theorem standing_int64Bound_false :
    (int64Bound false).standing = ⟨2, (2 ^ 63 : Int) * Magnitude.unitsPerOne, []⟩ := by
  rw [standing_int64Bound, signed_mul]
  rfl

/-- A whole number between the bounds equals an integer of 64 bits. -/
theorem exists_int64?_of_whole? {n : Int} (hx : x.whole? = some n) (hlow : -2 ^ 63 ≤ n)
    (hhigh : n < 2 ^ 63) : ∃ i, x.int64? = some i := by
  have hmin : Int64.minValue.toInt = -2 ^ 63 := by decide
  have hmax : Int64.maxValue.toInt = 2 ^ 63 - 1 := by decide
  refine ⟨Int64.ofInt n, ?_⟩
  unfold int64?
  rw [hx]
  show int64OfInt? n = _
  unfold int64OfInt?
  rw [if_pos ⟨by omega, by omega⟩]

/-- Between the bounds, a number that equals no integer of 64 bits has a fraction. -/
theorem whole?_eq_none_of_between (hint : x.int64? = none)
    (hupper : compare x.standing (int64Bound false).standing = .lt)
    (hlower : compare x.standing (int64Bound true).standing ≠ .lt) : x.whole? = none := by
  cases hwhole : x.whole? with
  | none => rfl
  | some n =>
    rw [whole?_eq_some_iff.mp hwhole, standing_int64Bound_false, compare_units_mul,
      Int.compare_eq_lt] at hupper
    rw [whole?_eq_some_iff.mp hwhole, standing_int64Bound_true, compare_units_mul, Ne,
      Int.compare_eq_lt] at hlower
    obtain ⟨i, hi⟩ := exists_int64?_of_whole? hwhole (by omega) hupper
    rw [hint] at hi
    cases hi

end Binary64

namespace Cell

/-- Every integer of 64 bits is below the upper bound and not below the lower one. -/
theorem standing_int_bounds (i : Int64) :
    compare (int i).standing (Binary64.int64Bound false).standing = .lt ∧
      (compare (Binary64.int64Bound true).standing (int i).standing).isLE = true := by
  have hlow := i.le_toInt
  have hhigh := i.toInt_lt
  rw [Binary64.standing_int64Bound_false, Binary64.standing_int64Bound_true]
  constructor
  · exact (Binary64.compare_units_mul _ _).trans (Int.compare_eq_lt.mpr hhigh)
  · show (compare (⟨2, (-2 ^ 63 : Int) * Magnitude.unitsPerOne, []⟩ : Standing)
      ⟨2, i.toInt * Magnitude.unitsPerOne, []⟩).isLE = true
    rw [Binary64.compare_units_mul]
    exact Int.isLE_compare.mpr hlow

/-- An integer and a binary64 number compare as their standings. -/
theorem compareIntFloat_eq (i : Int64) (x : Binary64) :
    compareIntFloat i x = compare (int i).standing x.standing := by
  by_cases hnan : x = .nan
  · rw [hnan, Standing.compare_of_rank_lt (by exact (by decide : 2 < 4))]
    rfl
  obtain ⟨hupper, hlower⟩ := standing_int_bounds i
  have hbound (negative : Bool) : Binary64.int64Bound negative ≠ .nan := by
    intro h
    cases h
  unfold compareIntFloat
  rw [if_neg (by simpa [Binary64.isNan] using hnan), Binary64.compare?_eq_some hnan (hbound false),
    Binary64.compare?_eq_some hnan (hbound true),
    Binary64.compare?_eq_some (Binary64.ofInt_ne_nan _) hnan]
  split
  next j hj =>
    -- the number equals an integer of 64 bits
    rw [Binary64.int64?_eq_some_iff.mp hj, Int64.compare_eq_toInt]
    exact (Binary64.compare_units_mul _ _).symm
  next hnone =>
    split
    next hge =>
      have hle : (compare (Binary64.int64Bound false).standing x.standing).isLE = true := by
        rw [Std.OrientedOrd.eq_swap, Ordering.isLE_swap]
        exact hge
      exact (Std.TransCmp.lt_of_lt_of_isLE hupper hle).symm
    next hlt =>
      split
      next hbelow =>
        injection hbelow with hbelow
        have hgt : compare x.standing (int i).standing = .lt :=
          Std.TransCmp.lt_of_lt_of_isLE hbelow hlower
        exact (Std.OrientedCmp.gt_iff_lt.mpr hgt).symm
      next habove =>
        -- what is left are the numbers with a fraction
        have hbelow : compare x.standing (Binary64.int64Bound false).standing = .lt := by
          cases h : compare x.standing (Binary64.int64Bound false).standing with
          | lt => rfl
          | eq => exact absurd (by rw [h]; rfl) hlt
          | gt => exact absurd (by rw [h]; rfl) hlt
        have hfraction : x.whole? = none :=
          Binary64.whole?_eq_none_of_between hnone hbelow fun h => habove (congrArg some h)
        cases x with
        | finite negative x =>
          have hle := i.le_toInt
          have hlt := i.toInt_lt
          rw [Option.getD_some]
          exact Binary64.compare_standing_ofInt (by omega) (Option.map_eq_none_iff.mp hfraction)
        | infinite negative =>
          cases negative with
          | true => exact absurd rfl habove
          | false => exact absurd rfl hlt
        | nan => exact absurd rfl hnan

/-- One order, whichever way it is computed. -/
theorem compareKinds_eq_compare (a b : Cell) : a.compareKinds b = compare a b := by
  show a.compareKinds b = compare a.standing b.standing
  cases a with
  | absent =>
    cases b with
    | absent => rfl
    | int j => rfl
    | float y => exact (Standing.compare_of_rank_lt (rank_standing_float y).1).symm
    | text t => rfl
  | int i =>
    cases b with
    | absent => rfl
    | int j =>
      show compare i j = _
      rw [Int64.compare_eq_toInt]
      exact (Binary64.compare_units_mul _ _).symm
    | float y => exact compareIntFloat_eq i y
    | text t => rfl
  | float x =>
    cases b with
    | absent => exact (Standing.compare_of_rank_gt (rank_standing_float x).1).symm
    | int j =>
      show (compareIntFloat j x).swap = _
      rw [compareIntFloat_eq]
      exact Std.OrientedCmp.eq_swap.symm
    | float y => exact Binary64.compareAny_eq x y
    | text t => exact (Standing.compare_of_rank_lt (rank_standing_float x).2).symm
  | text s =>
    cases b with
    | absent => rfl
    | int j => rfl
    | float y => exact (Standing.compare_of_rank_gt (rank_standing_float y).2).symm
    | text t => exact (Standing.compare_bytes 5 _ _).symm

end Cell

end CsvQuery

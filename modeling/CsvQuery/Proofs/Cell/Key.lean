/-
  CsvQuery.Proofs.Cell.Key — keys tell cells apart exactly as equality does.

  A key carries a tag for its kind, and within a kind the bytes are those of the value.  The one place
  where kinds meet is a binary64 number that equals an integer of 64 bits, and there the key is the
  integer's.  So the cells under one key are the cells that are equal, which is what a bucket needs.

  Main result:
    • `Cell.key_eq_key_iff` — two cells have one key exactly when they are equal
-/
import CsvQuery.Cell.Key
import CsvQuery.Proofs.Cell.Order
import CsvQuery.Proofs.Number.Binary64
import CsvQuery.Proofs.Text.Utf8

namespace CsvQuery

/-! ## §1. Words as bytes -/

/-- Numbers that fit in some bytes are told apart by these bytes. -/
theorem littleEndian_inj {count a b : Nat} (ha : a < 256 ^ count) (hb : b < 256 ^ count) :
    littleEndian count a = littleEndian count b ↔ a = b := by
  constructor
  · intro h
    induction count generalizing a b with
    | zero => simp at ha hb; omega
    | succ count ih =>
      simp only [littleEndian, List.cons.injEq] at h
      obtain ⟨hlow, hhigh⟩ := h
      -- the low byte gives the remainder, the other bytes the quotient
      have hlow : a % 256 = b % 256 := by
        have := congrArg UInt8.toNat hlow
        simpa using this
      have hhigh : a / 256 = b / 256 := by
        rw [Nat.pow_succ] at ha hb
        exact ih (by omega) (by omega) hhigh
      omega
  · intro h
    rw [h]

/-! ## §2. Numbers that equal an integer of 64 bits -/

/-- A magnitude is whole when its units are a multiple of those of one. -/
theorem Magnitude.whole?_eq_some_iff {x : Magnitude} {n : Nat} :
    x.whole? = some n ↔ x.units = n * unitsPerOne := by
  unfold Magnitude.whole?
  constructor
  · intro h
    split at h
    next hmod =>
      injection h with h
      rw [← h, Nat.div_mul_cancel (Nat.dvd_of_mod_eq_zero hmod)]
    next => cases h
  · intro h
    rw [h, Nat.mul_mod_left, if_pos rfl, Nat.mul_div_cancel n unitsPerOne_pos]

/-- A sign may be given to the product or to a factor. -/
theorem signed_mul (negative : Bool) (m n : Nat) :
    signed negative (m * n) = signed negative m * n := by
  cases negative with
  | true =>
    show -((m * n : Nat) : Int) = -(m : Int) * n
    rw [Int.natCast_mul, Int.neg_mul]
  | false => exact Int.natCast_mul m n

theorem natAbs_signed (negative : Bool) (n : Nat) : (signed negative n).natAbs = n := by
  cases negative <;> simp [signed]

/-- A signed number is a multiple of a natural number when the number without its sign is. -/
theorem signed_eq_mul_iff {unit : Nat} (hunit : 0 < unit) {negative : Bool} {m : Nat} {n : Int} :
    signed negative m = n * unit ↔ ∃ j, m = j * unit ∧ signed negative j = n := by
  constructor
  · intro h
    have hm : m = n.natAbs * unit := by
      rw [← natAbs_signed negative m, h, Int.natAbs_mul, Int.natAbs_natCast]
    refine ⟨n.natAbs, hm, ?_⟩
    rw [hm, signed_mul] at h
    exact Int.eq_of_mul_eq_mul_right (by omega) h
  · intro h
    obtain ⟨j, hm, hj⟩ := h
    rw [hm, signed_mul, hj]

/-- An integer has a word of 64 bits exactly when the word stands for it. -/
theorem int64OfInt?_eq_some_iff {n : Int} {i : Int64} : int64OfInt? n = some i ↔ n = i.toInt := by
  have hmin : Int64.minValue.toInt = -2 ^ 63 := by decide
  have hmax : Int64.maxValue.toInt = 2 ^ 63 - 1 := by decide
  unfold int64OfInt?
  constructor
  · intro h
    split at h
    next hrange =>
      injection h with hi
      rw [← hi, Int64.toInt_ofInt_of_le (by omega) (by omega)]
    next => cases h
  · intro h
    have hle := i.le_toInt
    have hlt := i.toInt_lt
    rw [h, if_pos ⟨by omega, by omega⟩, Int64.ofInt_toInt]

namespace Binary64

/-- A number is whole when its units are those of an integer. -/
theorem whole?_eq_some_iff {x : Binary64} {n : Int} :
    x.whole? = some n ↔ x.standing = ⟨2, n * Magnitude.unitsPerOne, []⟩ := by
  cases x with
  | finite negative x =>
    simp only [whole?, standing, Option.map_eq_some_iff, Magnitude.whole?_eq_some_iff,
      Standing.mk.injEq, true_and, and_true]
    exact (signed_eq_mul_iff Magnitude.unitsPerOne_pos).symm
  | infinite negative => cases negative <;> simp [whole?, standing]
  | nan => simp [whole?, standing]

/-- A number equals an integer of 64 bits when it has the standing of that integer's cell. -/
theorem int64?_eq_some_iff {x : Binary64} {i : Int64} :
    x.int64? = some i ↔ x.standing = (Cell.int i).standing := by
  show x.int64? = some i ↔ x.standing = ⟨2, i.toInt * Magnitude.unitsPerOne, []⟩
  rw [← whole?_eq_some_iff]
  simp only [int64?, Option.bind_eq_some_iff, int64OfInt?_eq_some_iff]
  constructor
  · intro h
    obtain ⟨n, hn, heq⟩ := h
    rw [hn, heq]
  · intro h
    exact ⟨i.toInt, h, rfl⟩

/-- Zero of either sign equals an integer, so a number that equals none has units. -/
theorem units_ne_zero_of_int64?_eq_none {negative : Bool} {x : Magnitude}
    (h : (Binary64.finite negative x).int64? = none) : x.units ≠ 0 := by
  intro hzero
  have hstanding : (Binary64.finite negative x).standing = (Cell.int 0).standing := by
    show (⟨2, signed negative x.units, []⟩ : Standing)
      = ⟨2, (0 : Int64).toInt * Magnitude.unitsPerOne, []⟩
    rw [hzero, Int64.toInt_zero, Int.zero_mul]
    cases negative <;> rfl
  rw [int64?_eq_some_iff.mpr hstanding] at h
  cases h

/-- Numbers that equal no integer of 64 bits are told apart by their standings. -/
theorem standing_inj_of_int64?_eq_none {x y : Binary64} (h : x.int64? = none) :
    x.standing = y.standing ↔ x = y := by
  constructor
  · intro heq
    cases x with
    | finite a x =>
      cases y with
      | finite b y =>
        simp only [standing, Standing.mk.injEq, true_and, and_true] at heq
        obtain ⟨hsign, hunits⟩ := (signed_inj (units_ne_zero_of_int64?_eq_none h)).mp heq
        rw [hsign, Magnitude.units_inj.mp hunits]
      | infinite b => cases b <;> simp [standing] at heq
      | nan => simp [standing] at heq
    | infinite a =>
      cases y with
      | finite b y => cases a <;> simp [standing] at heq
      | infinite b => cases a <;> cases b <;> simp [standing] at heq ⊢
      | nan => cases a <;> simp [standing] at heq
    | nan =>
      cases y with
      | finite b y => simp [standing] at heq
      | infinite b => cases b <;> simp [standing] at heq
      | nan => rfl
  · intro h
    rw [h]

end Binary64

/-! ## §3. Reduced cells -/

namespace Cell

/-- A cell is reduced unless it is a binary64 number that equals an integer of 64 bits. -/
def IsReduced : Cell → Prop
  | float x => x.int64? = none
  | _ => True

/-- The reduced cell that equals a cell. -/
def reduce : Cell → Cell
  | float x =>
    match x.int64? with
    | some i => int i
    | none => float x
  | cell => cell

theorem isReduced_reduce (a : Cell) : a.reduce.IsReduced := by
  cases a with
  | float x =>
    cases h : x.int64? with
    | some i => simp [reduce, h, IsReduced]
    | none => simp [reduce, h, IsReduced]
  | _ => trivial

/-- Reducing a cell does not move it among all cells. -/
theorem standing_reduce (a : Cell) : a.reduce.standing = a.standing := by
  cases a with
  | float x =>
    cases h : x.int64? with
    | some i =>
      rw [reduce, h]
      exact (Binary64.int64?_eq_some_iff.mp h).symm
    | none => rw [reduce, h]
  | _ => rfl

/-- Reducing a cell does not change its key. -/
theorem key_reduce (a : Cell) : a.reduce.key = a.key := by
  cases a with
  | float x => cases h : x.int64? <;> simp [reduce, key, h]
  | _ => rfl

theorem standing_int_inj {i j : Int64} : (int i).standing = (int j).standing ↔ i = j := by
  constructor
  · intro h
    have hunits : i.toInt * Magnitude.unitsPerOne = j.toInt * Magnitude.unitsPerOne :=
      congrArg Standing.units h
    have hpos := Magnitude.unitsPerOne_pos
    exact Int64.toInt_inj.mp (Int.eq_of_mul_eq_mul_right (by omega) hunits)
  · intro h
    rw [h]

/-- All binary64 numbers, infinite or not a number as well, stand behind absent cells and before texts. -/
theorem rank_standing_float (x : Binary64) :
    0 < (float x).standing.rank ∧ (float x).standing.rank < 5 := by
  cases x with
  | finite negative x => exact ⟨Nat.succ_pos 1, Nat.lt_add_of_pos_right (Nat.succ_pos 2)⟩
  | infinite negative => cases negative <;> exact ⟨by decide, by decide⟩
  | nan => exact ⟨by decide, by decide⟩

/-- A reduced number in binary64 form stands apart from every integer. -/
theorem standing_int_ne_float {i : Int64} {x : Binary64} (h : (float x).IsReduced) :
    (int i).standing ≠ (float x).standing := by
  intro heq
  have hsome : x.int64? = some i := Binary64.int64?_eq_some_iff.mpr heq.symm
  rw [show x.int64? = none from h] at hsome
  cases hsome

/-- Reduced cells are told apart by their standings. -/
theorem standing_inj_of_isReduced {a b : Cell} (ha : a.IsReduced) (hb : b.IsReduced) :
    a.standing = b.standing ↔ a = b := by
  constructor
  · intro h
    -- kinds differ in rank, but for integers and binary64 numbers
    have hrank := congrArg Standing.rank h
    cases a with
    | absent =>
      cases b with
      | absent => rfl
      | int j => cases hrank
      | float y => exact absurd hrank (Nat.ne_of_lt (rank_standing_float y).1)
      | text t => cases hrank
    | int i =>
      cases b with
      | absent => cases hrank
      | int j => rw [standing_int_inj.mp h]
      | float y => exact absurd h (standing_int_ne_float hb)
      | text t => cases hrank
    | float x =>
      cases b with
      | absent => exact absurd hrank (Nat.ne_of_gt (rank_standing_float x).1)
      | int j => exact absurd h.symm (standing_int_ne_float ha)
      | float y => rw [(Binary64.standing_inj_of_int64?_eq_none ha).mp h]
      | text t => exact absurd hrank (Nat.ne_of_lt (rank_standing_float x).2)
    | text s =>
      cases b with
      | absent => cases hrank
      | int j => cases hrank
      | float y => exact absurd hrank (Nat.ne_of_gt (rank_standing_float y).2)
      | text t => rw [utf8_inj.mp (congrArg Standing.bytes h)]
  · intro h
    rw [h]

/-! ## §4. Keys -/

theorem intKey_inj {i j : Int64} : intKey i = intKey j ↔ i = j := by
  have hlt (i : Int64) : i.toUInt64.toNat < 256 ^ 8 := i.toUInt64.toNat_lt
  simp only [intKey, List.cons.injEq, true_and]
  rw [littleEndian_inj (hlt i) (hlt j), UInt64.toNat_inj]
  cases i
  cases j
  simp

/-- The key of a number that equals no integer of 64 bits: its word, but one key for all that is not a
number. -/
def wordKey (x : Binary64) : List UInt8 := if x = .nan then [2] else 3 :: littleEndian 8 x.toWord

/-- A number that equals no integer of 64 bits has its word for a key. -/
theorem key_float_of_isReduced {x : Binary64} (h : (float x).IsReduced) :
    (float x).key = wordKey x := by
  rw [key, show x.int64? = none from h]
  rfl

/-- Numbers are told apart by these keys, since all words that are not a number are one. -/
theorem wordKey_inj {x y : Binary64} : wordKey x = wordKey y ↔ x = y := by
  constructor
  · intro h
    unfold wordKey at h
    by_cases hx : x = .nan <;> by_cases hy : y = .nan
    · rw [hx, hy]
    · simp [hx, hy] at h
    · simp [hx, hy] at h
    · simp only [hx, hy, if_false, List.cons.injEq, true_and] at h
      exact Binary64.toWord_inj.mp ((littleEndian_inj x.toWord_lt y.toWord_lt).mp h)
  · intro h
    rw [h]

/-- The tags of numbers that equal no integer of 64 bits are their own. -/
theorem tag_float {x : Binary64} (h : (float x).IsReduced) {tag : UInt8}
    (htag : (float x).key.head? = some tag) : tag = 2 ∨ tag = 3 := by
  rw [key_float_of_isReduced h, wordKey] at htag
  split at htag
  next =>
    injection htag with htag
    exact .inl htag.symm
  next =>
    injection htag with htag
    exact .inr htag.symm

/-- Reduced cells are told apart by their keys. -/
theorem key_inj_of_isReduced {a b : Cell} (ha : a.IsReduced) (hb : b.IsReduced) :
    a.key = b.key ↔ a = b := by
  constructor
  · intro h
    -- kinds differ in the first byte, so that only keys of one kind are left to compare
    have htag := congrArg List.head? h
    cases a with
    | absent =>
      cases b with
      | absent => rfl
      | int j => cases htag
      | float y => exact absurd (tag_float hb htag.symm) (by decide)
      | text t => cases htag
    | int i =>
      cases b with
      | absent => cases htag
      | int j => rw [intKey_inj.mp h]
      | float y => exact absurd (tag_float hb htag.symm) (by decide)
      | text t => cases htag
    | float x =>
      cases b with
      | absent => exact absurd (tag_float ha htag) (by decide)
      | int j => exact absurd (tag_float ha htag) (by decide)
      | float y =>
        rw [key_float_of_isReduced ha, key_float_of_isReduced hb] at h
        rw [wordKey_inj.mp h]
      | text t => exact absurd (tag_float ha htag) (by decide)
    | text s =>
      cases b with
      | absent => cases htag
      | int j => cases htag
      | float y => exact absurd (tag_float hb htag.symm) (by decide)
      | text t =>
        simp only [key, List.cons.injEq, true_and, List.append_cancel_right_eq] at h
        rw [utf8_inj.mp h]
  · intro h
    rw [h]

/-- Two cells have one key exactly when they are equal. -/
theorem key_eq_key_iff (a b : Cell) : a.key = b.key ↔ (a == b) = true := by
  rw [beq_iff_standing, ← key_reduce a, ← key_reduce b, ← standing_reduce a, ← standing_reduce b,
    key_inj_of_isReduced a.isReduced_reduce b.isReduced_reduce,
    standing_inj_of_isReduced a.isReduced_reduce b.isReduced_reduce]

end Cell

end CsvQuery

/-
  CsvQuery.Proofs.Cell.Display — the text of a cell, read again.

  A binary64 number is shown with a point, and then its text is read as the very number; or it is a
  whole number from `10 ^ 16` on and its shortest digits are filled up with zeros.  Such a text spells
  an integer.  Within 64 bits it is read as that integer, which need not be the number that was shown.

  Main results:
    • `Cell.ofField_display_of_point`, `Cell.ofField_display_of_zeros` — how a shown number is read
    • `Cell.display_ofField_display` — the text of a cell that was read stays as it is
    • `Cell.ofField_display_infer_beq_iff` — which cells are equal to what their text is read as
-/
import CsvQuery.Cell.Display
import CsvQuery.Cell.Infer
import CsvQuery.Proofs.Cell.Key
import CsvQuery.Proofs.Number.Shortest

namespace CsvQuery

/-! ## §1. Shown magnitudes -/

namespace Magnitude

variable {x : Magnitude}

/-- The number is shown with a point between digits. -/
def ShownWithPoint (x : Magnitude) : Prop :=
  ∃ whole fraction, x.display = whole ++ '.' :: fraction ∧ whole ≠ [] ∧
    ∀ d ∈ whole, d.isDigit = true

/-- The whole number `n` is shown as the shortest digits `c` and `k` zeros. -/
structure ShownWithZeros (x : Magnitude) (n c k : Nat) : Prop where
  whole : x.whole? = some n
  le : 10 ^ 16 ≤ n
  shortest : x.shortest = ⟨c, .ofNat k⟩

/-- A whole number below `10 ^ 16` is shown with all its digits and a zero behind the point. -/
theorem display_of_lt {n : Nat} (hwhole : x.whole? = some n) (hlt : n < 10 ^ 16) :
    x.display = Nat.toDigits 10 n ++ ['.', '0'] := by
  unfold display
  rw [hwhole]
  exact if_pos hlt

/-- Any other number is shown by its shortest digits. -/
theorem display_of_le (h : ∀ n, x.whole? = some n → 10 ^ 16 ≤ n) :
    x.display = x.shortest.positional := by
  unfold display
  cases hwhole : x.whole? with
  | none => rfl
  | some n => exact if_neg (Nat.not_lt.mpr (h n hwhole))

/-- A number with zeros behind its shortest digits is shown without a point. -/
theorem ShownWithZeros.display {n c k : Nat} (h : x.ShownWithZeros n c k) :
    x.display = Nat.toDigits 10 c ++ List.replicate k '0' := by
  have hle : ∀ m, x.whole? = some m → 10 ^ 16 ≤ m := by
    intro m hm
    rw [h.whole] at hm
    rw [← Option.some.inj hm]
    exact h.le
  rw [display_of_le hle, h.shortest]
  rfl

/-- A magnitude is a whole number below `10 ^ 16`, or else no such one. -/
theorem whole_cases (x : Magnitude) :
    (∃ n, x.whole? = some n ∧ n < 10 ^ 16) ∨ ∀ n, x.whole? = some n → 10 ^ 16 ≤ n := by
  by_cases hlow : ∃ n, x.whole? = some n ∧ n < 10 ^ 16
  · exact .inl hlow
  · exact .inr fun n hwhole => Nat.not_lt.mp fun hlt => hlow ⟨n, hwhole, hlt⟩

/-- A number is shown in one of the two ways. -/
theorem shown_cases (x : Magnitude) : x.ShownWithPoint ∨ ∃ n c k, x.ShownWithZeros n c k := by
  rcases x.whole_cases with ⟨n, hwhole, hlt⟩ | hle
  · exact .inl ⟨_, _, display_of_lt hwhole hlt, Nat.toDigits_ne_nil, isDigit_toDigits n⟩
  · cases hshortest : x.shortest with
    | mk c place =>
      cases place with
      | ofNat k =>
        -- digits without a point belong to a whole number
        obtain ⟨n, hunits⟩ := whole_of_shortest hshortest
        have hwhole : x.whole? = some n := whole?_eq_some_iff.mpr hunits
        exact .inr ⟨n, c, k, hwhole, hle n hwhole, hshortest⟩
      | negSucc k =>
        obtain ⟨whole, fraction, htext, hne, -, -, hdigits, -⟩ := Numeral.positional_negSucc c k
        refine .inl ⟨whole, fraction, ?_, hne, hdigits⟩
        rw [display_of_le hle, hshortest, htext]

/-- The text of a number is a numeral that is nearest to the number. -/
theorem nearest?_display (negative : Bool) (x : Magnitude) :
    (Numeral.ofText? (withSign negative x.display)).bind Numeral.nearest?
      = some (.finite negative x) := by
  rcases x.whole_cases with ⟨n, hwhole, hlt⟩ | hle
  · -- the zero behind the point makes the numeral ten times the number, over ten
    have hunits : x.units = n * unitsPerOne := whole?_eq_some_iff.mp hwhole
    have hnearest : nearest? (n * 10) 10 = some x := by
      apply nearest?_of_eq_units (by decide)
      rw [hunits, Nat.mul_right_comm]
    have hvalue : digitsValue (Nat.toDigits 10 n ++ ['0']) = n * 10 :=
      digitsValue_toDigits_append_zeros n 1
    have hzero : ∀ c ∈ ['0'], c.isDigit = true := isDigit_replicate_zero 1
    rw [display_of_lt hwhole hlt, Numeral.ofText?_point negative Nat.toDigits_ne_nil
      (isDigit_toDigits n) hzero, Option.bind_some]
    unfold Numeral.nearest? Numeral.decimal
    rw [hvalue, Decimal.nearest?_eq_quotient]
    show (nearest? (n * 10) 10).map _ = _
    rw [hnearest]
    rfl
  · rw [display_of_le hle, Numeral.nearest?_positional, nearest?_shortest]
    rfl

theorem ShownWithZeros.coefficient_pos {n c k : Nat} (h : x.ShownWithZeros n c k) : 0 < c := by
  have hunits : x.units = n * unitsPerOne := whole?_eq_some_iff.mp h.whole
  have hpos : 0 < n := Nat.lt_of_lt_of_le (by decide) h.le
  have hne : x.units ≠ 0 := by
    rw [hunits]
    exact Nat.ne_of_gt (Nat.mul_pos hpos unitsPerOne_pos)
  have hcoefficient := coefficient_shortest_pos hne
  rw [h.shortest] at hcoefficient
  exact hcoefficient

end Magnitude

theorem Binary64.display_finite (negative : Bool) (x : Magnitude) :
    (Binary64.finite negative x).display = withSign negative x.display := by
  cases negative <;> rfl

/-! ## §2. Shown cells, read again -/

namespace Cell

theorem ofField_ofList {text : List Char} (h : text ≠ []) :
    ofField (String.ofList text) = infer (String.ofList text) := by
  have hne : (String.ofList text).isEmpty = false :=
    String.isEmpty_eq_false_iff.mpr fun hempty => h (String.ofList_eq_empty_iff.mp hempty)
  rw [ofField, hne]
  rfl

theorem ofField_of_ne {raw : String} (h : raw ≠ "") : ofField raw = infer raw := by
  rw [ofField, String.isEmpty_eq_false_iff.mpr h]
  rfl

/-- A text is read as an integer whenever it spells one of 64 bits. -/
theorem infer_of_integer {raw : String} {n : Int} (h : integer? raw.toList = some n) {i : Int64}
    (hi : int64OfInt? n = some i) : infer raw = int i := by
  have hread : int64OfText? raw.toList = some i := by rw [int64OfText?, h, Option.bind_some, hi]
  rw [infer, hread]

/-- Any other text is read as a number if it spells one that is not too large. -/
theorem infer_of_numeral {raw : String} (h : (integer? raw.toList).bind int64OfInt? = none)
    {x : Binary64} (hx : (Numeral.ofText? raw.toList).bind Numeral.nearest? = some x) :
    infer raw = float x := by
  have hread : int64OfText? raw.toList = none := h
  rw [infer, hread]
  dsimp only
  rw [hx]

/-- A text stands for an integer, or else for a number, or else for itself. -/
theorem infer_cases (raw : String) :
    (∃ i, int64OfText? raw.toList = some i ∧ infer raw = int i) ∨
    (int64OfText? raw.toList = none ∧
      ∃ x, (Numeral.ofText? raw.toList).bind Numeral.nearest? = some x ∧ infer raw = float x) ∨
    (int64OfText? raw.toList = none ∧
      (Numeral.ofText? raw.toList).bind Numeral.nearest? = none ∧ infer raw = text raw) := by
  unfold infer
  cases int64OfText? raw.toList with
  | some i => exact .inl ⟨i, rfl, rfl⟩
  | none =>
    cases (Numeral.ofText? raw.toList).bind Numeral.nearest? with
    | some x => exact .inr (.inl ⟨rfl, x, rfl, rfl⟩)
    | none => exact .inr (.inr ⟨rfl, rfl, rfl⟩)

/-- The text of an integer is read as the integer. -/
theorem ofField_display_int (i : Int64) : ofField (int i).display = int i := by
  have hne : decimalText i.toInt ≠ [] := by
    intro hnil
    have := integer?_decimalText i.toInt
    rw [hnil] at this
    cases this
  show ofField (String.ofList (decimalText i.toInt)) = int i
  rw [ofField_ofList hne]
  apply infer_of_integer (n := i.toInt)
  · rw [String.toList_ofList, integer?_decimalText]
  · exact int64OfInt?_eq_some_iff.mpr rfl

/-- A number is never shown as the empty text, which would be read as absent. -/
theorem display_float_ne_nil (negative : Bool) (x : Magnitude) :
    withSign negative x.display ≠ [] := by
  cases negative with
  | true => exact List.cons_ne_nil _ _
  | false =>
    show x.display ≠ []
    rcases x.shown_cases with ⟨whole, fraction, htext, -, -⟩ | ⟨n, c, k, hzeros⟩
    · rw [htext]
      simp
    · rw [hzeros.display]
      simp

/-- A number that is shown with a point is read as itself. -/
theorem ofField_display_of_point {negative : Bool} {x : Magnitude} (h : x.ShownWithPoint) :
    ofField (float (.finite negative x)).display = float (.finite negative x) := by
  obtain ⟨whole, fraction, htext, hne, hdigits⟩ := h
  obtain ⟨c, rest, hcons, hdigit⟩ := exists_isDigit_cons hne hdigits
  have hinteger : integer? (withSign negative x.display) = none := by
    apply integer?_withSign_eq_none
    · exact ⟨c, rest ++ '.' :: fraction, by rw [htext, hcons]; rfl, hdigit⟩
    · exact ⟨'.', by rw [htext]; simp, by decide⟩
  show ofField (String.ofList (Binary64.finite negative x).display) = _
  rw [Binary64.display_finite, ofField_ofList (display_float_ne_nil negative x)]
  apply infer_of_numeral
  · rw [String.toList_ofList, hinteger]
    rfl
  · rw [String.toList_ofList, Magnitude.nearest?_display]

/-- A number that is shown with zeros is read as the integer that it is shown as, or as itself where
that integer does not fit into 64 bits. -/
theorem ofField_display_of_zeros {negative : Bool} {x : Magnitude} {n c k : Nat}
    (h : x.ShownWithZeros n c k) :
    ofField (float (.finite negative x)).display
      = match int64OfInt? (signed negative (c * 10 ^ k)) with
        | some i => int i
        | none => float (.finite negative x) := by
  have hne : Nat.toDigits 10 c ++ List.replicate k '0' ≠ [] := by simp
  have hinteger : integer? (withSign negative x.display)
      = some (signed negative (c * 10 ^ k)) := by
    rw [h.display, integer?_withSign negative hne (isDigit_toDigits_append_zeros c k),
      digitsValue_toDigits_append_zeros]
  show ofField (String.ofList (Binary64.finite negative x).display) = _
  rw [Binary64.display_finite, ofField_ofList (display_float_ne_nil negative x)]
  cases hint : int64OfInt? (signed negative (c * 10 ^ k)) with
  | some i =>
    apply infer_of_integer _ hint
    rw [String.toList_ofList, hinteger]
  | none =>
    apply infer_of_numeral
    · rw [String.toList_ofList, hinteger, Option.bind_some, hint]
    · rw [String.toList_ofList, Magnitude.nearest?_display]

/-! ## §3. Cells that were read -/

/-- The cells that reading a field gives: no infinity and nothing that is not a number, and a text only
where it is not read as anything else. -/
def IsRead : Cell → Prop
  | absent => True
  | int _ => True
  | float (.finite _ _) => True
  | float (.infinite _) => False
  | float .nan => False
  | text s => s ≠ "" ∧ infer s = text s

/-- What a text that is not empty stands for. -/
theorem isRead_infer {raw : String} (hraw : raw ≠ "") : (infer raw).IsRead := by
  rcases infer_cases raw with ⟨i, -, hinfer⟩ | ⟨-, x, hnumeral, hinfer⟩ | ⟨-, -, hinfer⟩
  · rw [hinfer]
    trivial
  · -- rounding gives finite numbers only
    obtain ⟨numeral, -, hnearest⟩ := Option.bind_eq_some_iff.mp hnumeral
    obtain ⟨magnitude, -, hx⟩ := Option.map_eq_some_iff.mp hnearest
    rw [hinfer, ← hx]
    trivial
  · rw [hinfer]
    exact ⟨hraw, hinfer⟩

/-- What a field is read as is such a cell, the absent one of an empty field too. -/
theorem isRead_ofField (field : String) : (ofField field).IsRead := by
  by_cases hfield : field = ""
  · rw [hfield]
    trivial
  · rw [ofField_of_ne hfield]
    exact isRead_infer hfield

/-- The text of a cell that was read is the text of what it is read as again. -/
theorem display_ofField_display {c : Cell} (h : c.IsRead) :
    (ofField c.display).display = c.display := by
  cases c with
  | absent => rfl
  | int i => rw [ofField_display_int]
  | text s =>
    obtain ⟨hne, hinfer⟩ := h
    show (ofField s).display = s
    rw [ofField_of_ne hne, hinfer]
    rfl
  | float x =>
    cases x with
    | infinite negative => exact h.elim
    | nan => exact h.elim
    | finite negative x =>
      rcases x.shown_cases with hpoint | ⟨n, c, k, hzeros⟩
      · rw [ofField_display_of_point hpoint]
      · rw [ofField_display_of_zeros hzeros]
        cases hint : int64OfInt? (signed negative (c * 10 ^ k)) with
        | none => rfl
        | some i =>
          -- the integer has the digits that the number is shown with
          have hpos : 0 < c * 10 ^ k :=
            Nat.mul_pos hzeros.coefficient_pos (Nat.pow_pos (by decide))
          show String.ofList (decimalText i.toInt)
            = String.ofList (Binary64.finite negative x).display
          rw [← int64OfInt?_eq_some_iff.mp hint, decimalText_signed negative hpos,
            toDigits_mul_pow hzeros.coefficient_pos, Binary64.display_finite, hzeros.display]

/-! ## §4. Equality with what is read -/

/-- The cell is a whole number from `10 ^ 16` on whose shortest digits, filled up with zeros, spell
another integer of 64 bits. -/
inductive ShownAsOther : Cell → Prop where
  | zeros {negative : Bool} {x : Magnitude} {n c k : Nat} (shown : x.ShownWithZeros n c k)
      (other : c * 10 ^ k ≠ n)
      (fits : (int64OfInt? (signed negative (c * 10 ^ k))).isSome = true) :
      ShownAsOther (float (.finite negative x))

section Shown

variable {negative : Bool} {x : Magnitude}

/-- A number that is shown with a point is read as itself, so it is not shown as another one. -/
theorem not_shownAsOther_of_point (h : x.ShownWithPoint) :
    ¬(float (.finite negative x)).ShownAsOther := by
  intro hother
  obtain ⟨hzeros, -, hsome⟩ := hother
  obtain ⟨i, hi⟩ := Option.isSome_iff_exists.mp hsome
  have hread : ofField (float (.finite negative x)).display = _ := ofField_display_of_zeros hzeros
  rw [ofField_display_of_point h, hi] at hread
  cases hread

/-- The digits and zeros that a number is shown with decide whether it is shown as another one. -/
theorem shownAsOther_iff {n c k : Nat} (h : x.ShownWithZeros n c k) :
    (float (.finite negative x)).ShownAsOther ↔
      c * 10 ^ k ≠ n ∧ (int64OfInt? (signed negative (c * 10 ^ k))).isSome = true := by
  constructor
  · intro hother
    rcases hother with @⟨_, _, n', c', k', hzeros, hne, hsome⟩
    have hn : n' = n := by
      have := hzeros.whole
      rw [h.whole] at this
      exact (Option.some.inj this).symm
    have hshortest := hzeros.shortest
    rw [h.shortest, Decimal.mk.injEq, Int.ofNat.injEq] at hshortest
    rw [← hshortest.1, ← hshortest.2] at hne hsome
    rw [hn] at hne
    exact ⟨hne, hsome⟩
  · intro hother
    exact .zeros h hother.1 hother.2

/-- An integer that a number is shown as equals the number when it is the same integer. -/
theorem int_beq_float_iff {n m : Nat} {i : Int64} (hx : x.whole? = some n)
    (hi : int64OfInt? (signed negative m) = some i) :
    (int i == float (.finite negative x)) = true ↔ m = n := by
  have hunits : x.units = n * Magnitude.unitsPerOne := Magnitude.whole?_eq_some_iff.mp hx
  have hpos := Magnitude.unitsPerOne_pos
  rw [beq_iff_standing]
  show (⟨2, i.toInt * Magnitude.unitsPerOne, []⟩ : Standing) = ⟨2, signed negative x.units, []⟩ ↔ _
  rw [← int64OfInt?_eq_some_iff.mp hi, hunits, signed_mul]
  simp only [Standing.mk.injEq, true_and, and_true]
  constructor
  · intro h
    have hsigned := Int.eq_of_mul_eq_mul_right (by omega) h
    have := congrArg Int.natAbs hsigned
    rwa [natAbs_signed, natAbs_signed] at this
  · intro h
    rw [h]

/-- A finite number is read back unless what is shown of it is another integer of 64 bits. -/
theorem ofField_display_float_beq_iff :
    (ofField (float (.finite negative x)).display == float (.finite negative x)) = true ↔
      ¬(float (.finite negative x)).ShownAsOther := by
  rcases x.shown_cases with hpoint | ⟨n, c, k, hzeros⟩
  · rw [ofField_display_of_point hpoint]
    exact iff_of_true (beq_refl _) (not_shownAsOther_of_point hpoint)
  · rw [ofField_display_of_zeros hzeros, shownAsOther_iff hzeros]
    cases hint : int64OfInt? (signed negative (c * 10 ^ k)) with
    | none => simp
    | some i =>
      dsimp only
      rw [int_beq_float_iff hzeros.whole hint]
      simp

end Shown

/-- The cell that stands for a text is equal to what its own text is read as, unless it is shown as
another integer. -/
theorem ofField_display_infer_beq_iff (raw : String) (hraw : raw ≠ "") :
    (ofField (infer raw).display == infer raw) = true ↔ ¬(infer raw).ShownAsOther := by
  have hread := isRead_infer hraw
  cases hcell : infer raw with
  | absent => exact iff_of_true (beq_refl _) nofun
  | int i =>
    rw [ofField_display_int]
    exact iff_of_true (beq_refl _) nofun
  | text s =>
    rw [hcell] at hread
    have hfield : ofField (text s).display = text s := by
      show ofField s = text s
      rw [ofField_of_ne hread.1, hread.2]
    rw [hfield]
    exact iff_of_true (beq_refl _) nofun
  | float x =>
    rw [hcell] at hread
    cases x with
    | infinite negative => exact hread.elim
    | nan => exact hread.elim
    | finite negative x => exact ofField_display_float_beq_iff

/-- The sixteen digits of `2 ^ 60` and three zeros spell another integer, and that is what is read. -/
theorem ofField_display_infer_two_pow_sixty :
    "1152921504606846976.0" ≠ "" ∧ (infer "1152921504606846976.0").ShownAsOther ∧
      ofField (infer "1152921504606846976.0").display = int 1152921504606847000 := by
  have hne : "1152921504606846976.0" ≠ "" := by decide
  have hdisplay : ofField (infer "1152921504606846976.0").display = int 1152921504606847000 := by
    decide +kernel
  have hother : (infer "1152921504606846976.0").ShownAsOther := by
    by_contra hsame
    have hbeq := (ofField_display_infer_beq_iff "1152921504606846976.0" hne).mpr hsame
    have hfalse : (ofField (infer "1152921504606846976.0").display
        == infer "1152921504606846976.0") = false := by decide +kernel
    rw [hfalse] at hbeq
    cases hbeq
  exact ⟨hne, hother, hdisplay⟩

end Cell

end CsvQuery

/-
  CsvQuery.Proofs.Number.Spelling — which texts are numbers.

  An integer is spelled by an optional sign and digits; a numeral by an optional sign, digits with an
  optional point among them, and an optional exponent, which is a letter and an integer.  A reader takes a
  text apart from left to right, as far as the digits go each time.  What follows digits in a spelling never
  begins with a digit, so the reader finds each part where the spelling has put it.

  Main results:
    • `integer?_eq_some_iff` — the integers
    • `Numeral.ofText?_eq_some_iff` — the numerals
-/
import CsvQuery.Proofs.Number.Decimal

namespace CsvQuery

/-! ## §1. The grammar -/

/-- A sign as it may stand before digits, and whether it is a minus. -/
inductive IsSign : (negative : Bool) → List Char → Prop where
  | none : IsSign false []
  | plus : IsSign false ['+']
  | minus : IsSign true ['-']

/-- The text is an optional sign and one digit or more, and denotes the integer. -/
inductive SpellsInteger : List Char → Int → Prop where
  | digits {negative : Bool} {sign digits : List Char} (isSign : IsSign negative sign)
      (nonempty : digits ≠ []) (decimal : ∀ c ∈ digits, c.isDigit = true) :
      SpellsInteger (sign ++ digits) (signed negative (digitsValue digits))

/-- The text ends a numeral: nothing, or a letter `e` of either case and an integer. -/
inductive SpellsExponent : List Char → Int → Prop where
  | none : SpellsExponent [] 0
  | lower {text : List Char} {n : Int} (integer : SpellsInteger text n) : SpellsExponent ('e' :: text) n
  | upper {text : List Char} {n : Int} (integer : SpellsInteger text n) : SpellsExponent ('E' :: text) n

/-- The text spells the numeral: an optional sign, digits with an optional point, at least one digit before
or after it, and an optional exponent. -/
inductive SpellsNumeral : List Char → Numeral → Prop where
  | whole {negative : Bool} {sign whole ending : List Char} {exponent : Int}
      (isSign : IsSign negative sign) (nonempty : whole ≠ [])
      (decimal : ∀ c ∈ whole, c.isDigit = true) (ends : SpellsExponent ending exponent) :
      SpellsNumeral (sign ++ (whole ++ ending)) ⟨negative, whole, [], exponent⟩
  | point {negative : Bool} {sign whole fraction ending : List Char} {exponent : Int}
      (isSign : IsSign negative sign) (nonempty : whole ++ fraction ≠ [])
      (decimal : ∀ c ∈ whole ++ fraction, c.isDigit = true) (ends : SpellsExponent ending exponent) :
      SpellsNumeral (sign ++ (whole ++ '.' :: (fraction ++ ending)))
        ⟨negative, whole, fraction, exponent⟩

/-! ## §2. Signs and digits -/

/-- The text does not begin with a sign. -/
def Unsigned (text : List Char) : Prop := text.head? ≠ some '+' ∧ text.head? ≠ some '-'

theorem splitSign_of_unsigned {text : List Char} (h : Unsigned text) : splitSign text = (false, text) := by
  unfold splitSign
  split
  next => exact absurd rfl h.2
  next => exact absurd rfl h.1
  next => rfl

/-- A sign is taken off where one stands, and nothing where none does. -/
theorem splitSign_of_isSign {negative : Bool} {sign text : List Char} (h : IsSign negative sign)
    (htext : sign = [] → Unsigned text) : splitSign (sign ++ text) = (negative, text) := by
  cases h with
  | none => exact splitSign_of_unsigned (htext rfl)
  | plus => rfl
  | minus => rfl

/-- A sign is taken off as it was put before. -/
theorem splitSign_append {negative : Bool} {sign text : List Char} (h : IsSign negative sign)
    (htext : Unsigned text) : splitSign (sign ++ text) = (negative, text) :=
  splitSign_of_isSign h fun _ => htext

/-- Every text is a sign and what follows it. -/
theorem exists_isSign (text : List Char) :
    ∃ sign, IsSign (splitSign text).1 sign ∧ text = sign ++ (splitSign text).2 := by
  unfold splitSign
  split
  next => exact ⟨['-'], .minus, rfl⟩
  next => exact ⟨['+'], .plus, rfl⟩
  next => exact ⟨[], .none, rfl⟩

theorem unsigned_of_isDigit {c : Char} (hc : c.isDigit = true) (text : List Char) :
    Unsigned (c :: text) := by
  constructor
  · rintro ⟨⟩
    exact absurd hc (by decide)
  · rintro ⟨⟩
    exact absurd hc (by decide)

theorem unsigned_append {digits : List Char} (hne : digits ≠ [])
    (hdigits : ∀ c ∈ digits, c.isDigit = true) (text : List Char) : Unsigned (digits ++ text) := by
  obtain ⟨c, rest, rfl, hc⟩ := exists_isDigit_cons hne hdigits
  exact unsigned_of_isDigit hc _

/-- The text does not begin with a digit. -/
def NoDigitAhead (text : List Char) : Prop := ∀ c, text.head? = some c → c.isDigit = false

/-- Digits are read as far as they go. -/
theorem takeWhile_isDigit_append {digits text : List Char} (hdigits : ∀ c ∈ digits, c.isDigit = true)
    (htext : NoDigitAhead text) : (digits ++ text).takeWhile Char.isDigit = digits ∧
      (digits ++ text).dropWhile Char.isDigit = text := by
  rw [List.takeWhile_append_of_pos hdigits, List.dropWhile_append_of_pos hdigits]
  cases text with
  | nil => exact ⟨List.append_nil _, rfl⟩
  | cons c text =>
    have hc : ¬c.isDigit = true := by rw [htext c rfl]; decide
    rw [List.takeWhile_cons_of_neg hc, List.dropWhile_cons_of_neg hc, List.append_nil]
    exact ⟨rfl, rfl⟩

theorem forall_mem_takeWhile (text : List Char) :
    ∀ c ∈ text.takeWhile Char.isDigit, c.isDigit = true :=
  List.all_eq_true.mp List.all_takeWhile

/-! ## §3. Integers -/

/-- The reader of integers takes the texts that spell one. -/
theorem integer?_eq_some_iff {text : List Char} {n : Int} :
    integer? text = some n ↔ SpellsInteger text n := by
  constructor
  · intro h
    obtain ⟨sign, hsign, htext⟩ := exists_isSign text
    unfold integer? at h
    dsimp only at h
    split at h
    next => cases h
    next hdigits =>
      simp only [Bool.or_eq_true, List.isEmpty_iff, Bool.not_eq_true', not_or, Bool.not_eq_false,
        List.all_eq_true] at hdigits
      rw [← Option.some.inj h]
      conv => lhs; rw [htext]
      exact .digits hsign hdigits.1 hdigits.2
  · intro h
    cases h with
    | @digits negative sign digits hsign hne hdigits =>
      have hunsigned : Unsigned digits := by
        have := unsigned_append hne hdigits []
        rwa [List.append_nil] at this
      have hall : digits.all Char.isDigit = true := List.all_eq_true.mpr hdigits
      unfold integer?
      rw [splitSign_append hsign hunsigned]
      simp [hne, hall]

/-- A text spells one integer only. -/
theorem SpellsInteger.unique {text : List Char} {m n : Int} (hm : SpellsInteger text m)
    (hn : SpellsInteger text n) : m = n := by
  rw [← integer?_eq_some_iff] at hm hn
  rw [hm] at hn
  exact Option.some.inj hn

/-! ## §4. Numerals -/

namespace Numeral

/-- An exponent is read exactly where one is spelled. -/
theorem exponent?_eq_some_iff {text : List Char} {n : Int} :
    exponent? text = some n ↔ SpellsExponent text n := by
  constructor
  · intro h
    unfold exponent? at h
    split at h
    next =>
      rw [← Option.some.inj h]
      exact .none
    next => exact .lower (integer?_eq_some_iff.mp h)
    next => exact .upper (integer?_eq_some_iff.mp h)
    next => cases h
  · intro h
    cases h with
    | none => rfl
    | lower hinteger => exact integer?_eq_some_iff.mpr hinteger
    | upper hinteger => exact integer?_eq_some_iff.mpr hinteger

/-- What ends a numeral begins with no digit and no point. -/
theorem ends_of_spellsExponent {text : List Char} {n : Int} (h : SpellsExponent text n) :
    NoDigitAhead text ∧ splitFraction text = ([], text) := by
  cases h with
  | none => exact ⟨nofun, rfl⟩
  | lower _ =>
    refine ⟨?_, rfl⟩
    rintro c ⟨⟩
    decide
  | upper _ =>
    refine ⟨?_, rfl⟩
    rintro c ⟨⟩
    decide

/-- A text of digits and what no digit begins, read as a numeral. -/
theorem ofText?_append {negative : Bool} {sign whole rest : List Char} (hsign : IsSign negative sign)
    (hunsigned : Unsigned (whole ++ rest)) (hwhole : ∀ c ∈ whole, c.isDigit = true)
    (hrest : NoDigitAhead rest) :
    ofText? (sign ++ (whole ++ rest))
      = if whole.isEmpty && (splitFraction rest).1.isEmpty then none
        else (exponent? (splitFraction rest).2).map fun exponent =>
          ⟨negative, whole, (splitFraction rest).1, exponent⟩ := by
  have hsplit := takeWhile_isDigit_append hwhole hrest
  unfold ofText?
  rw [splitSign_append hsign hunsigned]
  dsimp only
  rw [hsplit.1, hsplit.2]

/-- What follows the whole digits is a point and the digits behind it, or else no digits are split off. -/
theorem splitFraction_cases (rest : List Char) :
    (∀ c ∈ (splitFraction rest).1, c.isDigit = true) ∧
      ((splitFraction rest).1 = [] ∧ (splitFraction rest).2 = rest ∨
        rest = '.' :: ((splitFraction rest).1 ++ (splitFraction rest).2)) := by
  unfold splitFraction
  split
  next behind =>
    exact ⟨forall_mem_takeWhile behind,
      .inr (congrArg ('.' :: ·) List.takeWhile_append_dropWhile.symm)⟩
  next => exact ⟨nofun, .inl ⟨rfl, rfl⟩⟩

/-- What is read as a numeral spells it. -/
theorem spellsNumeral_of_ofText? {text : List Char} {n : Numeral} (h : ofText? text = some n) :
    SpellsNumeral text n := by
  obtain ⟨sign, hsign, htext⟩ := exists_isSign text
  have hparts : (splitSign text).2.takeWhile Char.isDigit ++ (splitSign text).2.dropWhile Char.isDigit
      = (splitSign text).2 := List.takeWhile_append_dropWhile
  have hwhole := forall_mem_takeWhile (splitSign text).2
  unfold ofText? at h
  dsimp only at h
  generalize (splitSign text).2.takeWhile Char.isDigit = whole at *
  generalize (splitSign text).2.dropWhile Char.isDigit = rest at *
  obtain ⟨hfraction, hrest⟩ := splitFraction_cases rest
  split at h
  next => cases h
  next hdigits =>
    obtain ⟨exponent, hexponent, rfl⟩ := Option.map_eq_some_iff.mp h
    have hends := exponent?_eq_some_iff.mp hexponent
    rw [Bool.and_eq_true, List.isEmpty_iff, List.isEmpty_iff, not_and] at hdigits
    rw [← hparts] at htext
    generalize (splitSign text).1 = negative at *
    subst htext
    generalize (splitFraction rest).1 = fraction at *
    generalize (splitFraction rest).2 = ending at *
    rcases hrest with ⟨rfl, rfl⟩ | rfl
    · exact .whole hsign (fun hempty => hdigits hempty rfl) hwhole hends
    · refine .point hsign (fun hempty => ?_) ?_ hends
      · exact hdigits (List.append_eq_nil_iff.mp hempty).1 (List.append_eq_nil_iff.mp hempty).2
      · intro c hc
        exact (List.mem_append.mp hc).elim (hwhole c) (hfraction c)

/-- A numeral that is spelled is read. -/
theorem ofText?_of_spellsNumeral {text : List Char} {n : Numeral} (h : SpellsNumeral text n) :
    ofText? text = some n := by
  cases h with
  | @whole negative sign whole ending exponent hsign hne hwhole hends =>
    obtain ⟨hahead, hsplit⟩ := ends_of_spellsExponent hends
    rw [ofText?_append hsign (unsigned_append hne hwhole ending) hwhole hahead, hsplit]
    dsimp only
    rw [if_neg (by simp [hne]), exponent?_eq_some_iff.mpr hends]
    rfl
  | @point negative sign whole fraction ending exponent hsign hne hdigits hends =>
    have hwhole : ∀ c ∈ whole, c.isDigit = true := fun c hc => hdigits c (List.mem_append_left _ hc)
    have hfraction : ∀ c ∈ fraction, c.isDigit = true :=
      fun c hc => hdigits c (List.mem_append_right _ hc)
    have hahead : NoDigitAhead ('.' :: (fraction ++ ending)) := by
      rintro c ⟨⟩
      decide
    -- the digits may begin with the point
    have hunsigned : Unsigned (whole ++ '.' :: (fraction ++ ending)) := by
      by_cases hempty : whole = []
      · rw [hempty]
        exact ⟨nofun, nofun⟩
      · exact unsigned_append hempty hwhole _
    have hsplit : splitFraction ('.' :: (fraction ++ ending)) = (fraction, ending) := by
      obtain ⟨htake, hdrop⟩ :=
        takeWhile_isDigit_append hfraction (ends_of_spellsExponent hends).1
      rw [splitFraction, htake, hdrop]
    have hsome : ¬(whole.isEmpty && fraction.isEmpty) = true := by
      rw [Bool.and_eq_true, List.isEmpty_iff, List.isEmpty_iff]
      rintro ⟨rfl, rfl⟩
      exact hne rfl
    rw [ofText?_append hsign hunsigned hwhole hahead, hsplit]
    dsimp only
    rw [if_neg hsome, exponent?_eq_some_iff.mpr hends]
    rfl

/-- The reader of numerals takes the texts that spell one. -/
theorem ofText?_eq_some_iff {text : List Char} {n : Numeral} :
    ofText? text = some n ↔ SpellsNumeral text n :=
  ⟨spellsNumeral_of_ofText?, ofText?_of_spellsNumeral⟩

end Numeral

/-- A text spells one numeral only. -/
theorem SpellsNumeral.unique {text : List Char} {m n : Numeral} (hm : SpellsNumeral text m)
    (hn : SpellsNumeral text n) : m = n := by
  rw [← Numeral.ofText?_eq_some_iff] at hm hn
  rw [hm] at hn
  exact Option.some.inj hn

end CsvQuery

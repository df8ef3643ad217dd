/-
  CsvQuery.Proofs.Cell.Infer — the texts that stand for numbers.

  A text is an integer if it spells one of 64 bits, and else a binary64 number if it spells a numeral that is
  not too great; this number is the correctly rounded one.  All other texts stay as they are.  A look at the
  bytes beforehand changes nothing: whatever spells a number has the bytes that are asked for, and no name of
  an infinity or of what is not a number has.

  Main results:
    • `Cell.infer_eq_int_iff`, `Cell.infer_eq_float_iff`, `Cell.infer_eq_text_iff` — the three outcomes
    • `Cell.inferScreened_eq` — with a look at the bytes
    • `Cell.infer_recognizes` — all together
-/
import CsvQuery.Cell.Screen
import CsvQuery.Proofs.Cell.Display
import CsvQuery.Proofs.Number.Nearest
import CsvQuery.Proofs.Number.Spelling
import CsvQuery.Proofs.Text.Utf8

namespace CsvQuery

/-! ## §1. The characters of numbers -/

/-- Whether a character may stand in a numeral. -/
def isNumeralChar (c : Char) : Bool :=
  c.isDigit || c = '+' || c = '-' || c = '.' || c = 'e' || c = 'E'

/-- Digits pass the screen, in bytes as in characters. -/
theorem passCodes_isDigit :
    PassCodes (fun n => 0x30 ≤ n ∧ n ≤ 0x39) isDigitByte Char.isDigit where
  byte b := by simp [isDigitByte, UInt8.le_iff_toNat_le]
  char c := by simp [Char.isDigit, UInt32.le_iff_toNat_le]
  ascii n h := by omega

/-- Digits, signs, points and the letter of an exponent pass the screen, in bytes as in characters. -/
theorem passCodes_isNumeralChar :
    PassCodes (fun n => 0x30 ≤ n ∧ n ≤ 0x39 ∨ n = 0x2B ∨ n = 0x2D ∨ n = 0x2E ∨ n = 0x65 ∨ n = 0x45)
      isNumeralByte isNumeralChar where
  byte b := by
    simp [isNumeralByte, passCodes_isDigit.byte, ← UInt8.toNat_inj, or_assoc]
  char c := by
    simp [isNumeralChar, passCodes_isDigit.char, ← Char.toNat_inj, or_assoc]
  ascii n h := by omega

theorem isNumeralChar_of_isDigit {c : Char} (h : c.isDigit = true) : isNumeralChar c = true := by
  simp [isNumeralChar, h]

theorem IsSign.isNumeralChar {negative : Bool} {sign : List Char} (h : IsSign negative sign) :
    ∀ c ∈ sign, isNumeralChar c = true := by
  cases h with
  | none => nofun
  | plus => exact List.forall_mem_singleton.mpr (by decide)
  | minus => exact List.forall_mem_singleton.mpr (by decide)

/-- The text of an integer has only characters that pass the screen. -/
theorem SpellsInteger.isNumeralChar {text : List Char} {n : Int} (h : SpellsInteger text n) :
    ∀ c ∈ text, isNumeralChar c = true := by
  cases h with
  | digits hsign hne hdigits =>
    intro c hc
    rcases List.mem_append.mp hc with hsigned | hdigit
    · exact hsign.isNumeralChar c hsigned
    · exact isNumeralChar_of_isDigit (hdigits c hdigit)

theorem SpellsExponent.isNumeralChar {text : List Char} {n : Int} (h : SpellsExponent text n) :
    ∀ c ∈ text, isNumeralChar c = true := by
  cases h with
  | none => nofun
  | lower hinteger => exact List.forall_mem_cons.mpr ⟨by decide, hinteger.isNumeralChar⟩
  | upper hinteger => exact List.forall_mem_cons.mpr ⟨by decide, hinteger.isNumeralChar⟩

/-- Digits and the other characters of numerals make up a numeral. -/
theorem SpellsNumeral.isNumeralChar {text : List Char} {n : Numeral} (h : SpellsNumeral text n) :
    ∀ c ∈ text, isNumeralChar c = true := by
  cases h with
  | whole hsign hne hdigits hends =>
    simp only [List.forall_mem_append]
    exact ⟨hsign.isNumeralChar, fun c hc => isNumeralChar_of_isDigit (hdigits c hc),
      hends.isNumeralChar⟩
  | point hsign hne hdigits hends =>
    rw [List.forall_mem_append] at hdigits
    simp only [List.forall_mem_append, List.forall_mem_cons]
    exact ⟨hsign.isNumeralChar, fun c hc => isNumeralChar_of_isDigit (hdigits.1 c hc), by decide,
      fun c hc => isNumeralChar_of_isDigit (hdigits.2 c hc), hends.isNumeralChar⟩

/-- One of them at least is a digit. -/
theorem SpellsNumeral.exists_isDigit {text : List Char} {n : Numeral} (h : SpellsNumeral text n) :
    ∃ c ∈ text, c.isDigit = true := by
  cases h with
  | @whole _ _ whole _ _ hsign hne hdigits hends =>
    obtain ⟨c, hc⟩ := List.exists_mem_of_ne_nil whole hne
    exact ⟨c, by simp [hc], hdigits c hc⟩
  | @point _ _ whole fraction _ _ hsign hne hdigits hends =>
    obtain ⟨c, hc⟩ := List.exists_mem_of_ne_nil _ hne
    refine ⟨c, ?_, hdigits c hc⟩
    rcases List.mem_append.mp hc with hwhole | hfraction
    · simp [hwhole]
    · simp [hfraction]

/-! ## §2. Names -/

/-- No name of a number begins with a character that passes the screen. -/
theorem toLower_of_isNumeralChar {c : Char} (h : isNumeralChar c = true) :
    c.toLower ≠ 'i' ∧ c.toLower ≠ 'n' := by
  -- there are few enough codes to try them all
  have hcodes : ∀ n < 0x80, isNumeralChar (Char.ofNat n) = true →
      (Char.ofNat n).toLower ≠ 'i' ∧ (Char.ofNat n).toLower ≠ 'n' := by
    decide +kernel
  have hlt := passCodes_isNumeralChar.ascii _ ((passCodes_isNumeralChar.char c).mp h)
  have hc := hcodes c.toNat hlt
  rw [Char.ofNat_toNat] at hc
  exact hc h

/-- No name of a number has only characters of numerals. -/
theorem Binary64.ofName?_eq_none (negative : Bool) {name : List Char}
    (h : ∀ c ∈ name, isNumeralChar c = true) : ofName? negative name = none := by
  have hfirst (first : Char) (rest : List Char) (hname : asciiLower name = first :: rest) :
      first ≠ 'i' ∧ first ≠ 'n' := by
    obtain ⟨c, tail, rfl, rfl, -⟩ := List.map_eq_cons_iff.mp hname
    exact toLower_of_isNumeralChar (h c List.mem_cons_self)
  unfold ofName?
  split
  next hname => exact absurd rfl (hfirst _ _ hname).1
  next hname => exact absurd rfl (hfirst _ _ hname).1
  next hname => exact absurd rfl (hfirst _ _ hname).2
  next => rfl

/-- Without a name, the finite numbers that are read are those of numerals. -/
theorem Binary64.filter_ofText? {text : List Char} (h : ∀ c ∈ text, isNumeralChar c = true) :
    (ofText? text).filter isFinite = (Numeral.ofText? text).bind Numeral.nearest? := by
  obtain ⟨sign, -, htext⟩ := exists_isSign text
  -- what follows the sign is part of the text, so it is no name
  have hname : ofName? (splitSign text).1 (splitSign text).2 = none := by
    refine ofName?_eq_none _ fun c hc => h c ?_
    rw [htext]
    exact List.mem_append_right sign hc
  unfold ofText?
  dsimp only
  rw [hname]
  cases Numeral.ofText? text with
  | none => rfl
  | some n =>
    show (some (ofRounded n.negative n.decimal.nearest?)).filter isFinite = n.nearest?
    unfold Numeral.nearest?
    cases n.decimal.nearest? with
    | none => rfl
    | some x => rfl

namespace Cell

variable {raw : String}

/-! ## §3. A look at the bytes -/

/-- What spells an integer passes the look at its bytes. -/
theorem screenedInteger?_eq (raw : String) : screenedInteger? raw = int64OfText? raw.toList := by
  have hempty : (utf8 (String.ofList (splitSign raw.toList).2)).isEmpty
      = (splitSign raw.toList).2.isEmpty := by
    rw [utf8_ofList, Bool.eq_iff_iff, List.isEmpty_iff, List.isEmpty_iff, charBytes_eq_nil_iff]
  have hdigits : (utf8 (String.ofList (splitSign raw.toList).2)).all isDigitByte
      = (splitSign raw.toList).2.all Char.isDigit := by
    rw [utf8_ofList, passCodes_isDigit.all_charBytes]
  unfold screenedInteger?
  dsimp only
  rw [hempty, hdigits]
  split
  next hrefused =>
    -- the reader makes the same test again
    have hnone : integer? raw.toList = none := by
      unfold integer?
      dsimp only
      rw [if_pos hrefused]
    rw [int64OfText?, hnone]
    rfl
  next => rfl

/-- What spells a numeral passes the look at its bytes. -/
theorem screenedFloat?_eq (raw : String) :
    screenedFloat? raw = (Numeral.ofText? raw.toList).bind Numeral.nearest? := by
  unfold screenedFloat?
  dsimp only
  rw [utf8_eq_charBytes, passCodes_isDigit.any_charBytes, passCodes_isNumeralChar.all_charBytes]
  split
  next hrefused =>
    cases hnumeral : Numeral.ofText? raw.toList with
    | none => rfl
    | some n =>
      -- a numeral has a digit and no characters but its own, so it is not refused
      have hspells := Numeral.ofText?_eq_some_iff.mp hnumeral
      have hany := List.any_eq_true.mpr hspells.exists_isDigit
      have hall := List.all_eq_true.mpr hspells.isNumeralChar
      rw [hany, hall] at hrefused
      cases hrefused
  next hpassed =>
    simp only [Bool.or_eq_true, Bool.not_eq_true', not_or, Bool.not_eq_false, List.all_eq_true]
      at hpassed
    exact Binary64.filter_ofText? hpassed.2

/-- Looking at the bytes first makes no difference. -/
theorem inferScreened_eq (raw : String) : inferScreened raw = infer raw := by
  unfold inferScreened
  rw [screenedInteger?_eq, screenedFloat?_eq]
  rfl

/-! ## §4. The three outcomes -/

/-- A text is read as a word exactly when it spells the integer of the word. -/
theorem int64OfText?_eq_some_iff {text : List Char} {i : Int64} :
    int64OfText? text = some i ↔ SpellsInteger text i.toInt := by
  unfold int64OfText?
  rw [Option.bind_eq_some_iff]
  constructor
  · rintro ⟨n, hn, hi⟩
    rw [← int64OfInt?_eq_some_iff.mp hi]
    exact integer?_eq_some_iff.mp hn
  · intro h
    exact ⟨_, integer?_eq_some_iff.mpr h, int64OfInt?_eq_some_iff.mpr rfl⟩

theorem int64OfText?_eq_none_iff {text : List Char} :
    int64OfText? text = none ↔ ∀ i : Int64, ¬SpellsInteger text i.toInt := by
  rw [Option.eq_none_iff_forall_ne_some]
  exact forall_congr' fun i => not_congr int64OfText?_eq_some_iff

/-- A text is read as a finite number exactly when it spells a numeral whose nearest number that is. -/
theorem numeral_eq_some_iff {text : List Char} {x : Binary64} :
    (Numeral.ofText? text).bind Numeral.nearest? = some x ↔
      ∃ (n : Numeral) (m : Magnitude), SpellsNumeral text n ∧ m.IsNearest n.value ∧
        x = .finite n.negative m := by
  rw [Option.bind_eq_some_iff]
  simp only [Numeral.ofText?_eq_some_iff, Numeral.nearest?_eq_some_iff, exists_and_left]

/-- A text is not read as a finite number exactly when all that it can spell is too large. -/
theorem numeral_eq_none_iff {text : List Char} :
    (Numeral.ofText? text).bind Numeral.nearest? = none ↔
      ∀ n, SpellsNumeral text n → Magnitude.overflow ≤ n.value := by
  rw [Option.bind_eq_none_iff]
  simp only [Numeral.ofText?_eq_some_iff, Numeral.nearest?_eq_none_iff]

/-- A text becomes an integer exactly when it spells one of 64 bits. -/
theorem infer_eq_int_iff {i : Int64} : infer raw = int i ↔ SpellsInteger raw.toList i.toInt := by
  rw [← int64OfText?_eq_some_iff]
  rcases infer_cases raw with ⟨j, hread, hinfer⟩ | ⟨hread, x, -, hinfer⟩ | ⟨hread, -, hinfer⟩
  · rw [hread, hinfer, int.injEq, Option.some_inj]
  · rw [hread, hinfer]
    exact iff_of_false nofun nofun
  · rw [hread, hinfer]
    exact iff_of_false nofun nofun

/-- A text becomes a binary64 number exactly when it spells no integer of 64 bits but a numeral that is not
too large, and becomes the number nearest to it. -/
theorem infer_eq_float_iff {x : Binary64} :
    infer raw = float x ↔ (∀ i : Int64, ¬SpellsInteger raw.toList i.toInt) ∧
      ∃ (n : Numeral) (m : Magnitude), SpellsNumeral raw.toList n ∧ m.IsNearest n.value ∧
        x = .finite n.negative m := by
  rw [← int64OfText?_eq_none_iff, ← numeral_eq_some_iff]
  rcases infer_cases raw with ⟨j, hread, hinfer⟩ | ⟨hread, y, hnumeral, hinfer⟩ |
    ⟨hread, hnumeral, hinfer⟩
  · rw [hread, hinfer]
    exact iff_of_false nofun nofun
  · rw [hread, hnumeral, hinfer, float.injEq, Option.some_inj]
    exact (and_iff_right rfl).symm
  · rw [hnumeral, hinfer]
    exact iff_of_false nofun nofun

/-- A text stays one exactly when it spells neither. -/
theorem infer_eq_text_iff {s : String} :
    infer raw = text s ↔ s = raw ∧ (∀ i : Int64, ¬SpellsInteger raw.toList i.toInt) ∧
      ∀ n, SpellsNumeral raw.toList n → Magnitude.overflow ≤ n.value := by
  rw [← int64OfText?_eq_none_iff, ← numeral_eq_none_iff]
  rcases infer_cases raw with ⟨j, hread, hinfer⟩ | ⟨hread, y, hnumeral, hinfer⟩ |
    ⟨hread, hnumeral, hinfer⟩
  · rw [hread, hinfer]
    exact iff_of_false nofun nofun
  · rw [hnumeral, hinfer]
    exact iff_of_false nofun nofun
  · rw [hread, hnumeral, hinfer, text.injEq]
    exact ⟨fun h => ⟨h.symm, rfl, rfl⟩, fun h => h.1.symm⟩

/-- A text is an integer exactly if it is an optional sign and digits that denote one of 64 bits.  It is a
binary64 number exactly if it is not such an integer but a numeral whose correctly rounded number is finite,
and then it is this number.  In every other case it is the text as it is.  Looking at the bytes first comes to
the same. -/
theorem infer_recognizes (raw : String) :
    (∀ i : Int64, infer raw = int i ↔ SpellsInteger raw.toList i.toInt) ∧
    (∀ x : Binary64, infer raw = float x ↔ (∀ i : Int64, ¬SpellsInteger raw.toList i.toInt) ∧
      ∃ (n : Numeral) (m : Magnitude), SpellsNumeral raw.toList n ∧ m.IsNearest n.value ∧
        x = .finite n.negative m) ∧
    (∀ s : String, infer raw = text s ↔ s = raw ∧
      (∀ i : Int64, ¬SpellsInteger raw.toList i.toInt) ∧
      ∀ n, SpellsNumeral raw.toList n → Magnitude.overflow ≤ n.value) ∧
    infer raw ≠ absent ∧ inferScreened raw = infer raw := by
  refine ⟨fun i => infer_eq_int_iff, fun x => infer_eq_float_iff, fun s => infer_eq_text_iff, ?_,
    inferScreened_eq raw⟩
  rcases infer_cases raw with ⟨i, -, hinfer⟩ | ⟨-, x, -, hinfer⟩ | ⟨-, -, hinfer⟩
  · rw [hinfer]
    nofun
  · rw [hinfer]
    nofun
  · rw [hinfer]
    nofun

/-- Digits on one side of the point are enough.  One sign is, and an exponent has digits. -/
example : ["1.", "+.5", "-0", "-0.", "+-5", "1e", ".", "-Inf", "9223372036854775808", "1e309", "１"].map infer
    = [float (.ofWord 0x3FF0000000000000), float (.ofWord 0x3FE0000000000000), int 0,
      float (.ofWord 0x8000000000000000), text "+-5", text "1e", text ".", text "-Inf",
      float (.ofWord 0x43E0000000000000), text "1e309", text "１"] := by decide +kernel

end Cell

end CsvQuery

/-
  CsvQuery.Proofs.Number.Digits — decimal texts and the integers they denote.

  The digits of a number give the number back, zeros before them change nothing and zeros after them
  are powers of ten.  A sign is told from a digit by its first character, so signed texts are taken
  apart as they were put together.

  Main results:
    • `digitsValue_toDigits_append_zeros` — digits with zeros after them
    • `splitSign_withSign` — a sign before digits
    • `integer?_decimalText` — the text of an integer is read as the integer
-/
import CsvQuery.Number.Digits
import CsvQuery.Proofs.Number.Binary64

namespace CsvQuery

/-! ## §1. Digits -/

theorem isDigit_toDigits (n : Nat) : ∀ c ∈ Nat.toDigits 10 n, c.isDigit = true :=
  fun _ hc => Nat.isDigit_of_mem_toDigits (by decide) (by decide) hc

theorem isDigit_replicate_zero (k : Nat) : ∀ c ∈ List.replicate k '0', c.isDigit = true := by
  intro c hc
  rw [List.eq_of_mem_replicate hc]
  decide

theorem isDigit_toDigits_append_zeros (n k : Nat) :
    ∀ c ∈ Nat.toDigits 10 n ++ List.replicate k '0', c.isDigit = true := by
  intro c hc
  rcases List.mem_append.mp hc with hdigit | hzero
  · exact isDigit_toDigits n c hdigit
  · exact isDigit_replicate_zero k c hzero

/-- Digits have the value that they were written for. -/
theorem digitsValue_toDigits (n : Nat) : digitsValue (Nat.toDigits 10 n) = n :=
  Nat.ofDigitChars_ten_toDigits

theorem digitsValue_zeros_append (k : Nat) (digits : List Char) :
    digitsValue (List.replicate k '0' ++ digits) = digitsValue digits := by
  unfold digitsValue
  rw [Nat.ofDigitChars_append, Nat.ofDigitChars_replicate_zero, Nat.mul_zero]

/-- Each zero behind digits makes ten times their value. -/
theorem digitsValue_append_zeros (digits : List Char) (k : Nat) :
    digitsValue (digits ++ List.replicate k '0') = digitsValue digits * 10 ^ k := by
  unfold digitsValue
  rw [Nat.ofDigitChars_append, Nat.ofDigitChars_replicate_zero, Nat.mul_comm]

/-- Zeros after the digits of a number are powers of ten. -/
theorem digitsValue_toDigits_append_zeros (n k : Nat) :
    digitsValue (Nat.toDigits 10 n ++ List.replicate k '0') = n * 10 ^ k := by
  rw [digitsValue_append_zeros, digitsValue_toDigits]

/-- The digits of a number times a power of ten are its own, then zeros. -/
theorem toDigits_mul_pow {n : Nat} (hn : 0 < n) (k : Nat) :
    Nat.toDigits 10 (n * 10 ^ k) = Nat.toDigits 10 n ++ List.replicate k '0' := by
  induction k with
  | zero => rw [Nat.pow_zero, Nat.mul_one, List.replicate_zero, List.append_nil]
  | succ k ih =>
    -- one more factor of ten is one more zero at the end
    have hpos : 0 < n * 10 ^ k := Nat.mul_pos hn (Nat.pow_pos (by decide))
    have hlast := Nat.toDigits_append_toDigits (b := 10) (d := 0) (by decide) hpos (by decide)
    have hmul : 10 * (n * 10 ^ k) + 0 = n * 10 ^ (k + 1) := by
      rw [Nat.add_zero, Nat.pow_succ, Nat.mul_comm 10, Nat.mul_assoc]
    rw [List.replicate_succ', ← List.append_assoc, ← ih, ← hmul, ← hlast, Nat.toDigits_zero]

/-- The digits of a number open with a zero only if the number is zero. -/
theorem eq_zero_of_head?_toDigits {n : Nat} (h : (Nat.toDigits 10 n).head? = some '0') : n = 0 := by
  induction n using Nat.strongRecOn with
  | _ n ih =>
    rw [Nat.toDigits_eq_if (by decide)] at h
    split at h
    case isTrue hsmall =>
      have hdigit : ∀ d < 10, [d.digitChar].head? = some '0' → d = 0 := by decide
      exact hdigit n hsmall h
    case isFalse hlarge =>
      -- the first digit is that of the number without its last one
      rw [List.head?_append, Option.or_of_isSome (by simp)] at h
      have hzero := ih (n / 10) (by omega) h
      omega

/-! ## §2. Signs -/

/-- A text with a minus before it if the sign is negative. -/
def withSign (negative : Bool) (text : List Char) : List Char :=
  if negative then '-' :: text else text

/-- A sign is taken off a text that begins with a digit. -/
theorem splitSign_withSign (negative : Bool) {text : List Char}
    (h : ∃ c rest, text = c :: rest ∧ c.isDigit = true) :
    splitSign (withSign negative text) = (negative, text) := by
  obtain ⟨c, rest, htext, hdigit⟩ := h
  subst htext
  cases negative with
  | true => rfl
  | false =>
    show splitSign (c :: rest) = _
    unfold splitSign
    split
    next heq =>
      rw [(List.cons.inj heq).1] at hdigit
      exact absurd hdigit (by decide)
    next heq =>
      rw [(List.cons.inj heq).1] at hdigit
      exact absurd hdigit (by decide)
    next => rfl

/-- A text of one digit or more begins with a digit. -/
theorem exists_isDigit_cons {text : List Char} (hne : text ≠ [])
    (hdigits : ∀ c ∈ text, c.isDigit = true) :
    ∃ c rest, text = c :: rest ∧ c.isDigit = true := by
  cases text with
  | nil => exact absurd rfl hne
  | cons c rest => exact ⟨c, rest, rfl, hdigits c List.mem_cons_self⟩

/-! ## §3. Integers -/

/-- A sign and digits denote the signed value of the digits. -/
theorem integer?_withSign (negative : Bool) {digits : List Char} (hne : digits ≠ [])
    (hdigits : ∀ c ∈ digits, c.isDigit = true) :
    integer? (withSign negative digits) = some (signed negative (digitsValue digits)) := by
  unfold integer?
  rw [splitSign_withSign negative (exists_isDigit_cons hne hdigits)]
  have hall : digits.all Char.isDigit = true := List.all_eq_true.mpr hdigits
  simp [hne, hall]

/-- A text with a character in it that is no digit denotes no integer. -/
theorem integer?_withSign_eq_none (negative : Bool) {text : List Char}
    (hfirst : ∃ c rest, text = c :: rest ∧ c.isDigit = true)
    (hother : ∃ c ∈ text, c.isDigit = false) : integer? (withSign negative text) = none := by
  unfold integer?
  rw [splitSign_withSign negative hfirst]
  have hall : text.all Char.isDigit = false := List.all_eq_false.mpr (by simpa using hother)
  simp [hall]

/-- The text of an integer is its sign and its digits. -/
theorem decimalText_signed (negative : Bool) {n : Nat} (hn : 0 < n) :
    decimalText (signed negative n) = withSign negative (Nat.toDigits 10 n) := by
  obtain ⟨m, hm⟩ := Nat.exists_eq_succ_of_ne_zero (Nat.pos_iff_ne_zero.mp hn)
  subst hm
  cases negative <;> rfl

/-- The text of an integer is read as the integer. -/
theorem integer?_decimalText (i : Int) : integer? (decimalText i) = some i := by
  cases i with
  | ofNat n =>
    show integer? (withSign false (Nat.toDigits 10 n)) = _
    rw [integer?_withSign false Nat.toDigits_ne_nil (isDigit_toDigits n), digitsValue_toDigits]
    rfl
  | negSucc n =>
    show integer? (withSign true (Nat.toDigits 10 (n + 1))) = _
    rw [integer?_withSign true Nat.toDigits_ne_nil (isDigit_toDigits (n + 1)), digitsValue_toDigits]
    rfl

end CsvQuery

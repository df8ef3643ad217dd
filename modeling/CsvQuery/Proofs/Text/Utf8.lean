/-
  CsvQuery.Proofs.Text.Utf8 — texts, their characters and their bytes.

  The bytes of a text give the text back.  They are the bytes of its characters, one after the other, and
  no character outside ASCII has an ASCII byte in it, so a test of ASCII codes may be made of the bytes or
  of the characters.

  Main results:
    • `ofUtf8?_utf8`, `utf8_of_ofUtf8?` — a text and its bytes
    • `PassCodes.any_charBytes`, `PassCodes.all_charBytes` — tests of ASCII codes, in bytes and in characters
-/
import Mathlib.Data.List.Basic
import CsvQuery.Text.Utf8

namespace CsvQuery

/-! ## §1. Texts and their bytes -/

theorem length_utf8 (text : String) : (utf8 text).length = text.utf8ByteSize := by
  unfold utf8
  rw [Array.length_toList]
  rfl

/-- The bytes of a text are decoded to the text. -/
theorem ofUtf8?_utf8 (text : String) : ofUtf8? (utf8 text) = some text := by
  show String.fromUTF8? text.toByteArray = some text
  unfold String.fromUTF8?
  rw [dif_pos text.isValidUTF8]
  rfl

/-- Bytes that can be decoded are those of the text that they are decoded to. -/
theorem utf8_of_ofUtf8? {bytes : List UInt8} {text : String} (h : ofUtf8? bytes = some text) :
    utf8 text = bytes := by
  unfold ofUtf8? String.fromUTF8? at h
  split at h
  · cases h
    rfl
  · cases h

theorem utf8_inj {s t : String} : utf8 s = utf8 t ↔ s = t := by
  constructor
  · intro h
    have hread : some s = some t := by rw [← ofUtf8?_utf8 s, h, ofUtf8?_utf8]
    exact Option.some.inj hread
  · intro h
    rw [h]

/-! ## §2. The bytes of characters -/

/-- The UTF-8 bytes of a list of characters. -/
def charBytes (text : List Char) : List UInt8 := text.flatMap String.utf8EncodeChar

theorem utf8_ofList (text : List Char) : utf8 (String.ofList text) = charBytes text := by
  simp [utf8, charBytes, List.utf8Encode]

/-- The bytes of a text are those of its characters. -/
theorem utf8_eq_charBytes (text : String) : utf8 text = charBytes text.toList := by
  rw [← utf8_ofList, String.ofList_toList]

theorem charBytes_append (a b : List Char) : charBytes (a ++ b) = charBytes a ++ charBytes b :=
  List.flatMap_append

theorem charBytes_eq_nil_iff {text : List Char} : charBytes text = [] ↔ text = [] := by
  cases text with
  | nil => simp [charBytes]
  | cons c rest => simp [charBytes, String.utf8EncodeChar_ne_nil]

/-- An ASCII character is one byte. -/
theorem utf8EncodeChar_of_lt {c : Char} (h : c.toNat < 0x80) :
    String.utf8EncodeChar c = [UInt8.ofNat c.toNat] := by
  have hle : c.val.toNat ≤ 0x7f := Nat.le_of_lt_succ h
  unfold String.utf8EncodeChar
  simp only [hle, if_true]
  rfl

/-- No byte of another character is ASCII. -/
theorem le_of_mem_utf8EncodeChar {c : Char} (h : 0x80 ≤ c.toNat) {b : UInt8}
    (hb : b ∈ String.utf8EncodeChar c) : 0x80 ≤ b.toNat := by
  have hnot : ¬c.val.toNat ≤ 0x7f := Nat.not_le.mpr h
  unfold String.utf8EncodeChar at hb
  simp only [hnot, if_false] at hb
  -- two, three or four bytes, each with its highest bit set
  split at hb
  case isTrue =>
    simp only [List.mem_cons, List.not_mem_nil, or_false] at hb
    rcases hb with rfl | rfl <;> simp only [UInt8.toNat_ofNat'] <;> omega
  case isFalse =>
    split at hb
    case isTrue =>
      simp only [List.mem_cons, List.not_mem_nil, or_false] at hb
      rcases hb with rfl | rfl | rfl <;> simp only [UInt8.toNat_ofNat'] <;> omega
    case isFalse =>
      simp only [List.mem_cons, List.not_mem_nil, or_false] at hb
      rcases hb with rfl | rfl | rfl | rfl <;> simp only [UInt8.toNat_ofNat'] <;> omega

/-- A character has an ASCII byte only as its one byte. -/
theorem mem_utf8EncodeChar_iff {c : Char} {b : UInt8} (hb : b.toNat < 0x80) :
    b ∈ String.utf8EncodeChar c ↔ b.toNat = c.toNat := by
  by_cases h : c.toNat < 0x80
  · rw [utf8EncodeChar_of_lt h, List.mem_singleton, ← UInt8.toNat_inj, UInt8.toNat_ofNat',
      Nat.mod_eq_of_lt (by omega)]
  · constructor
    · intro hmem
      have hle := le_of_mem_utf8EncodeChar (Nat.le_of_not_lt h) hmem
      omega
    · omega

/-! ## §3. Tests of bytes -/

/-- The test of bytes and the test of characters pass the same codes, which are ASCII. -/
structure PassCodes (IsCode : Nat → Prop) (p : UInt8 → Bool) (q : Char → Bool) : Prop where
  byte (b : UInt8) : p b = true ↔ IsCode b.toNat
  char (c : Char) : q c = true ↔ IsCode c.toNat
  ascii (n : Nat) : IsCode n → n < 0x80

namespace PassCodes

variable {IsCode : Nat → Prop} {p : UInt8 → Bool} {q : Char → Bool}

/-- One of the bytes of a character passes when the character does. -/
theorem any_utf8EncodeChar (h : PassCodes IsCode p q) (c : Char) :
    (String.utf8EncodeChar c).any p = q c := by
  rw [Bool.eq_iff_iff, h.char, List.any_eq_true]
  constructor
  · rintro ⟨b, hmem, hb⟩
    rw [h.byte] at hb
    rw [mem_utf8EncodeChar_iff (h.ascii _ hb)] at hmem
    rwa [← hmem]
  · intro hc
    have hlt := h.ascii _ hc
    have hbyte : (UInt8.ofNat c.toNat).toNat = c.toNat := by
      rw [UInt8.toNat_ofNat']
      omega
    refine ⟨UInt8.ofNat c.toNat, (mem_utf8EncodeChar_iff (by omega)).mpr hbyte, ?_⟩
    rwa [h.byte, hbyte]

/-- All bytes of a character pass when the character does. -/
theorem all_utf8EncodeChar (h : PassCodes IsCode p q) (c : Char) :
    (String.utf8EncodeChar c).all p = q c := by
  by_cases hc : c.toNat < 0x80
  · -- its one byte
    rw [← h.any_utf8EncodeChar c, utf8EncodeChar_of_lt hc]
    simp only [List.all_cons, List.all_nil, List.any_cons, List.any_nil, Bool.and_true, Bool.or_false]
  · have hfails : ¬q c = true := fun hpass => hc (h.ascii _ ((h.char c).mp hpass))
    obtain ⟨b, hb⟩ := List.exists_mem_of_ne_nil _ (String.utf8EncodeChar_ne_nil (c := c))
    have hle := le_of_mem_utf8EncodeChar (Nat.le_of_not_lt hc) hb
    rw [Bool.eq_false_iff.mpr hfails, List.all_eq_false]
    refine ⟨b, hb, fun hpass => ?_⟩
    have hlt := h.ascii _ ((h.byte b).mp hpass)
    omega

/-- Whether a code of the class occurs can be seen from the bytes as from the characters. -/
theorem any_charBytes (h : PassCodes IsCode p q) (text : List Char) :
    (charBytes text).any p = text.any q := by
  unfold charBytes
  rw [List.any_flatMap]
  congr 1
  exact funext h.any_utf8EncodeChar

/-- Whether only codes of the class occur can be seen from the bytes as from the characters. -/
theorem all_charBytes (h : PassCodes IsCode p q) (text : List Char) :
    (charBytes text).all p = text.all q := by
  unfold charBytes
  rw [List.all_flatMap]
  congr 1
  exact funext h.all_utf8EncodeChar

end PassCodes

end CsvQuery

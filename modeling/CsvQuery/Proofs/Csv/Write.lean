/-
  CsvQuery.Proofs.Csv.Write — writing a table does not fail.

  A flexible writer takes records of any width.  The bytes that make a field be quoted are ASCII, so
  working on bytes or on characters is the same, and the bytes of every buffer are those of a text.

  Main results:
    • `recordBytes_map_charBytes` — a record in bytes is the record in characters
    • `write_eq` — columns and rows are written, as their text
-/
import Mathlib.Data.List.Basic
import CsvQuery.Csv.Encode
import CsvQuery.Csv.Write
import CsvQuery.Proofs.Text.Utf8

namespace CsvQuery

namespace Csv

/-! ## §1. Fields -/

/-- A byte makes its field be quoted when a character of the same code does. -/
theorem passCodes_needsQuotes :
    PassCodes (fun n => n = 0x2C ∨ n = 0x22 ∨ n = 0x0A ∨ n = 0x0D) byteNeedsQuotes needsQuotes where
  byte b := by simp [byteNeedsQuotes, ← UInt8.toNat_inj, or_assoc]
  char c := by simp [needsQuotes, ← Char.toNat_inj, or_assoc]
  ascii n h := by omega

/-- The bytes of a character, with a quote among them written twice. -/
theorem flatMap_doubled_utf8EncodeChar (c : Char) :
    (String.utf8EncodeChar c).flatMap (fun b => if b = 0x22 then [0x22, 0x22] else [b])
      = charBytes (if c = '"' then ['"', '"'] else [c]) := by
  by_cases hc : c = '"'
  · subst hc
    rfl
  · -- no other character has the byte of a quote
    have hkept : ∀ b ∈ String.utf8EncodeChar c, (if b = 0x22 then [0x22, 0x22] else [b]) = [b] := by
      intro b hb
      rw [if_neg]
      rintro rfl
      exact hc (Char.toNat_inj.mp ((mem_utf8EncodeChar_iff (by decide)).mp hb).symm)
    rw [if_neg hc, List.flatMap_congr hkept, List.flatMap_singleton']
    simp [charBytes]

/-- A field in bytes is the field in characters, quoted where that is. -/
theorem fieldBytes_charBytes (field : List Char) :
    fieldBytes (charBytes field) = charBytes (encodeField field) := by
  have hany : (charBytes field).any byteNeedsQuotes = field.any needsQuotes :=
    passCodes_needsQuotes.any_charBytes field
  have hdoubled : (charBytes field).flatMap (fun b => if b = 0x22 then [0x22, 0x22] else [b])
      = charBytes (doubleQuotes field) := by
    unfold charBytes doubleQuotes
    rw [List.flatMap_assoc, List.flatMap_assoc]
    exact List.flatMap_congr fun c _ => flatMap_doubled_utf8EncodeChar c
  unfold fieldBytes encodeField
  rw [hany, hdoubled]
  split
  · simp [charBytes, String.utf8EncodeChar]
  · rfl

/-! ## §2. Records -/

theorem intercalate_map_charBytes (fields : List (List Char)) :
    [0x2C].intercalate (fields.map charBytes) = charBytes ([','].intercalate fields) := by
  induction fields with
  | nil => rfl
  | cons field fields ih =>
    cases fields with
    | nil => simp
    | cons next fields =>
      rw [List.map_cons, List.map_cons, List.intercalate_cons_cons, List.intercalate_cons_cons,
        charBytes_append, charBytes_append, ← ih]
      rfl

/-- A record in bytes is the record in characters. -/
theorem recordBytes_map_charBytes (fields : List (List Char)) :
    recordBytes (fields.map charBytes) = charBytes (encodeLine fields) := by
  have hline : [0x2C].intercalate ((fields.map charBytes).map fieldBytes)
      = charBytes ([','].intercalate (fields.map encodeField)) := by
    rw [← intercalate_map_charBytes, List.map_map, List.map_map]
    congr 1
    exact List.map_congr_left fun field _ => fieldBytes_charBytes field
  unfold recordBytes encodeLine
  rw [hline]
  -- the line is empty in bytes exactly when it is empty in characters
  by_cases hempty : [','].intercalate (fields.map encodeField) = []
  · simp only [hempty]
    rfl
  · have hbytes := mt charBytes_eq_nil_iff.mp hempty
    simp only [List.isEmpty_iff, hempty, hbytes, if_false]
    rw [charBytes_append]
    rfl

theorem flatMap_recordBytes (records : List (List (List Char))) :
    (records.map (List.map charBytes)).flatMap recordBytes = charBytes (records.flatMap encodeLine) := by
  rw [charBytes, List.flatMap_assoc, List.flatMap_map]
  exact List.flatMap_congr fun fields _ => recordBytes_map_charBytes fields

/-! ## §3. Tables -/

/-- A flexible writer takes every record. -/
theorem Writer.record_of_flexible {writer : Writer} (h : writer.flexible = true)
    (fields : List (List UInt8)) :
    ∃ next, writer.record fields = .ok next ∧ next.flexible = true ∧
      next.bytes = writer.bytes ++ recordBytes fields := by
  unfold Writer.record
  cases writer.width with
  | none => exact ⟨_, rfl, h, rfl⟩
  | some width =>
    dsimp only
    rw [if_pos (by rw [h, Bool.true_or])]
    exact ⟨_, rfl, h, rfl⟩

/-- A flexible writer takes all records, one after the other. -/
theorem Writer.foldlM_record_of_flexible {writer : Writer} (h : writer.flexible = true)
    (records : List (List (List UInt8))) :
    ∃ next, records.foldlM Writer.record writer = .ok next ∧
      next.bytes = writer.bytes ++ records.flatMap recordBytes := by
  induction records generalizing writer with
  | nil => exact ⟨writer, rfl, by simp⟩
  | cons fields records ih =>
    obtain ⟨next, hnext, hflexible, hbytes⟩ := writer.record_of_flexible h fields
    obtain ⟨last, hlast, hlater⟩ := ih hflexible
    refine ⟨last, ?_, ?_⟩
    · rw [List.foldlM_cons, hnext]
      exact hlast
    · rw [hlater, hbytes, List.flatMap_cons, List.append_assoc]

/-- Columns and rows are written, as their text. -/
theorem write_eq (columns : List String) (rows : List Row) :
    write columns rows = .ok (encode columns rows) := by
  unfold write encode
  by_cases hcolumns : columns.isEmpty = true
  · rw [if_pos hcolumns, if_pos hcolumns]
  · rw [if_neg hcolumns, if_neg hcolumns]
    dsimp only
    set records := columns.map String.toList :: rows.map fun row => row.map fun cell => cell.display.toList
    have hrecords : (columns.map utf8 :: rows.map fun row => row.map fun cell => utf8 cell.display)
        = records.map fun fields => fields.map charBytes := by
      simp [records, Function.comp_def, utf8_eq_charBytes]
    have hflexible : (Writer.empty true).flexible = true := rfl
    obtain ⟨last, hlast, hbytes⟩ :=
      Writer.foldlM_record_of_flexible hflexible (records.map (List.map charBytes))
    have htext : last.bytes = utf8 (String.ofList (records.flatMap encodeLine)) := by
      rw [hbytes, flatMap_recordBytes, utf8_ofList]
      rfl
    rw [hrecords, hlast]
    show last.text = _
    unfold Writer.text
    rw [htext, ofUtf8?_utf8]

end Csv

end CsvQuery

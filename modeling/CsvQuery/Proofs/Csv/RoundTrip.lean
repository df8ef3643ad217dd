/-
  CsvQuery.Proofs.Csv.RoundTrip — whatever is written is read back.

  The scanner is followed over one written field, then over one line of fields, then over all lines.
  Between two fields it stands before a field, with the fields read so far behind it; between two
  lines it stands before a line, with nothing behind it.  Only three texts need care: a field without
  characters, a line that consists of one such field, and a line of no fields, which is written as the
  same pair of quotes.

  Main results:
    • `Scanner.lines_encodeField` — where the scanner stands behind a written field
    • `Scanner.lines_encodeLine` — the fields that are read from a written line
    • `decode_encode` — columns and rows are written, and what is read from their text
-/
import CsvQuery.Csv.Decode
import CsvQuery.Proofs.Csv.Write

namespace CsvQuery.Csv

/-! ## §1. Written fields -/

theorem ne_quote_of_not_needsQuotes {c : Char} (h : needsQuotes c = false) : c ≠ '"' := by
  intro hc
  rw [hc] at h
  exact absurd h (by decide)

/-- Only a field without characters is written as nothing. -/
theorem encodeField_eq_nil_iff {field : List Char} : encodeField field = [] ↔ field = [] := by
  unfold encodeField
  split
  next hany =>
    constructor
    · intro h
      exact absurd h (List.cons_ne_nil _ _)
    · intro h
      rw [h] at hany
      exact absurd hany (by decide)
  next => exact Iff.rfl

/-- Nothing is written for the fields of a line only if there are none or just one without characters. -/
theorem intercalate_encodeField_eq_nil_iff {fields : List (List Char)} :
    [','].intercalate (fields.map encodeField) = [] ↔ fields = [] ∨ fields = [[]] := by
  match fields with
  | [] => simp [List.intercalate_nil]
  | [field] =>
    rw [List.map_singleton, List.intercalate_singleton, encodeField_eq_nil_iff]
    simp
  | first :: second :: fields =>
    rw [List.map_cons, List.map_cons, List.intercalate_cons_cons]
    simp

/-- The fields that are read from a written line: a line of no fields is read as one empty field. -/
def readBack (fields : List (List Char)) : List (List Char) :=
  if fields.isEmpty then [[]] else fields

/-! ## §2. One character -/

namespace Scanner

variable {s next : Scanner} {c : Char}

theorem lines_of_step_none (h : s.step c = (none, next)) (rest : List Char) :
    s.lines (c :: rest) = next.lines rest := by
  rw [lines, h]

theorem lines_of_step_some {line : Line} (h : s.step c = (some line, next)) (rest : List Char) :
    s.lines (c :: rest) = line :: next.lines rest := by
  rw [lines, h]

/-- A character that needs no quotes is kept outside quotes. -/
theorem stepUnquoted_of_not_needsQuotes (h : needsQuotes c = false) :
    s.stepUnquoted c = (none, s.keep c .plain) := by
  simp only [needsQuotes, Bool.or_eq_false_iff, decide_eq_false_iff_not] at h
  obtain ⟨⟨⟨hcomma, -⟩, hfeed⟩, hreturn⟩ := h
  rw [stepUnquoted, if_neg hcomma, if_neg hfeed, if_neg hreturn]

/-! ## §3. One field -/

/-- Text between quotes is read with each doubled quote as one. -/
theorem lines_doubleQuotes (text field rest : List Char) (fields : List (List Char)) :
    lines ⟨.quoted, field, fields⟩ (doubleQuotes text ++ rest)
      = lines ⟨.quoted, text.reverse ++ field, fields⟩ rest := by
  induction text generalizing field with
  | nil => rfl
  | cons c text ih =>
    have hcons : doubleQuotes (c :: text)
        = (if c = '"' then ['"', '"'] else [c]) ++ doubleQuotes text := List.flatMap_cons
    rw [hcons, List.append_assoc, List.reverse_cons, List.append_assoc]
    by_cases hc : c = '"'
    · -- the first quote seems to close the text, the second one takes that back
      rw [if_pos hc, hc]
      show lines ⟨.quoted, field, fields⟩ ('"' :: '"' :: (doubleQuotes text ++ rest)) = _
      rw [lines_of_step_none rfl, lines_of_step_none rfl]
      exact ih ('"' :: field)
    · have hstep : step ⟨.quoted, field, fields⟩ c = (none, ⟨.quoted, c :: field, fields⟩) :=
        if_neg hc
      rw [if_neg hc, List.singleton_append, lines_of_step_none hstep]
      exact ih (c :: field)

/-- Text outside quotes is read as it stands if no character needs quotes. -/
theorem lines_plain (text field rest : List Char) (fields : List (List Char))
    (h : ∀ c ∈ text, needsQuotes c = false) :
    lines ⟨.plain, field, fields⟩ (text ++ rest)
      = lines ⟨.plain, text.reverse ++ field, fields⟩ rest := by
  induction text generalizing field with
  | nil => rfl
  | cons c text ih =>
    have hc : step ⟨.plain, field, fields⟩ c = (none, ⟨.plain, c :: field, fields⟩) :=
      stepUnquoted_of_not_needsQuotes (h c List.mem_cons_self)
    rw [List.cons_append, lines_of_step_none hc, List.reverse_cons, List.append_assoc]
    exact ih (c :: field) fun d hd => h d (List.mem_cons_of_mem c hd)

/-- The scanner stands before the first character of a field. -/
inductive BeforeField : Scanner → Prop where
  /-- The field is the first one of its line, and the line before it did not end in a carriage return. -/
  | first : BeforeField (atLine false)
  /-- The field follows a comma. -/
  | later (fields : List (List Char)) : BeforeField ⟨.fieldStart, [], fields⟩

/-- Where a scanner that stood before a field stands once the written field is read. -/
def afterField (s : Scanner) (field : List Char) : Scanner :=
  if field.any needsQuotes then ⟨.closing, field.reverse, s.fields⟩
  else if field.isEmpty then s
  else ⟨.plain, field.reverse, s.fields⟩

theorem BeforeField.step_quote (h : BeforeField s) :
    s.step '"' = (none, ⟨.quoted, [], s.fields⟩) := by
  cases h <;> rfl

/-- A character that needs no quotes begins a field outside quotes. -/
theorem BeforeField.step_of_not_needsQuotes (h : BeforeField s) (hc : needsQuotes c = false) :
    s.step c = (none, ⟨.plain, [c], s.fields⟩) := by
  have hquote : c ≠ '"' := ne_quote_of_not_needsQuotes hc
  cases h with
  | first =>
    show (if c = '"' then _ else if false = true ∧ c = '\n' then _ else _) = _
    rw [if_neg hquote, if_neg (by simp), stepUnquoted_of_not_needsQuotes hc]
    rfl
  | later fields =>
    show (if c = '"' then _ else _) = _
    rw [if_neg hquote, stepUnquoted_of_not_needsQuotes hc]
    rfl

/-- A written field is read to its end. -/
theorem lines_encodeField (h : BeforeField s) (field rest : List Char) :
    s.lines (encodeField field ++ rest) = (s.afterField field).lines rest := by
  unfold encodeField afterField
  by_cases hany : field.any needsQuotes = true
  · -- the opening quote, the text and the closing quote, which nothing has confirmed yet
    rw [if_pos hany, if_pos hany, List.cons_append, lines_of_step_none h.step_quote,
      List.append_assoc, lines_doubleQuotes, List.append_nil, List.singleton_append,
      lines_of_step_none rfl]
    rfl
  · rw [if_neg hany, if_neg hany]
    have hplain : ∀ c ∈ field, needsQuotes c = false := by
      intro c hc
      rw [← Bool.not_eq_true]
      exact fun hneeds => hany (List.any_eq_true.mpr ⟨c, hc, hneeds⟩)
    cases field with
    | nil => rfl
    | cons c text =>
      have hc := h.step_of_not_needsQuotes (hplain c List.mem_cons_self)
      rw [List.cons_append, lines_of_step_none hc,
        lines_plain text [c] rest _ fun d hd => hplain d (List.mem_cons_of_mem c hd),
        ← List.reverse_cons]
      rfl

/-- A comma behind a written field ends the field. -/
theorem BeforeField.step_comma (h : BeforeField s) (field : List Char) :
    (s.afterField field).step ',' = (none, ⟨.fieldStart, [], field :: s.fields⟩) := by
  unfold afterField
  split
  · show (none, _) = _
    rw [List.reverse_reverse]
  · split
    next hempty =>
      rw [List.isEmpty_iff.mp hempty]
      cases h <;> rfl
    next =>
      show (none, _) = _
      rw [List.reverse_reverse]

/-- A line feed behind a written field ends the line, and a line begins with its first field unless
that has no characters. -/
theorem BeforeField.step_lineFeed (h : BeforeField s) {field : List Char}
    (hbegun : field ≠ [] ∨ s ≠ atLine false) :
    (s.afterField field).step '\n'
      = (some (.record (s.fields.reverse ++ [field])), atLine false) := by
  unfold afterField
  split
  · show (some (Line.record _), _) = _
    rw [List.reverse_reverse, List.reverse_cons]
  · split
    next hempty =>
      have hfield := List.isEmpty_iff.mp hempty
      cases h with
      | first => exact absurd hbegun (by simp [hfield])
      | later fields =>
        rw [hfield]
        show (some (Line.record _), _) = _
        rw [List.reverse_nil, List.reverse_cons]
    next =>
      show (some (Line.record _), _) = _
      rw [List.reverse_reverse, List.reverse_cons]

/-! ## §4. One line -/

/-- The fields of a written line that has a character before its end are read from where its first
field is due. -/
theorem lines_encodeFields (h : BeforeField s) (field : List Char) (fields : List (List Char))
    (hbegun : field ≠ [] ∨ fields ≠ [] ∨ s ≠ atLine false) (rest : List Char) :
    s.lines ([','].intercalate ((field :: fields).map encodeField) ++ '\n' :: rest)
      = .record (s.fields.reverse ++ field :: fields) :: (atLine false).lines rest := by
  -- each comma moves the scanner to the next field, and from there on the line has begun
  induction fields generalizing s field with
  | nil =>
    have hlast : field ≠ [] ∨ s ≠ atLine false := by simpa using hbegun
    rw [List.map_singleton, List.intercalate_singleton, lines_encodeField h,
      lines_of_step_some (h.step_lineFeed hlast)]
  | cons second fields ih =>
    have hcomma := lines_of_step_none (h.step_comma field)
      ([','].intercalate ((second :: fields).map encodeField) ++ '\n' :: rest)
    have hrest := ih (.later (field :: s.fields)) second (by simp [atLine])
    rw [List.map_cons, List.map_cons, List.intercalate_cons_cons, List.append_assoc,
      List.append_assoc, lines_encodeField h, List.singleton_append, ← List.map_cons, hcomma, hrest,
      List.reverse_cons, List.append_assoc, List.singleton_append]

/-- A pair of quotes is read as one field without characters. -/
theorem lines_pairOfQuotes (rest : List Char) :
    (atLine false).lines ('"' :: '"' :: '\n' :: rest)
      = .record [[]] :: (atLine false).lines rest := by
  rw [lines_of_step_none rfl, lines_of_step_none rfl, lines_of_step_some rfl]
  rfl

/-- A written line is read as its fields. -/
theorem lines_encodeLine (fields : List (List Char)) (rest : List Char) :
    (atLine false).lines (encodeLine fields ++ rest)
      = .record (readBack fields) :: (atLine false).lines rest := by
  unfold encodeLine
  by_cases hempty : ([','].intercalate (fields.map encodeField)).isEmpty = true
  · -- both lines that leave nothing to write are read as the pair of quotes
    simp only [hempty, if_true]
    have hback : readBack fields = [[]] := by
      obtain h | h := intercalate_encodeField_eq_nil_iff.mp (List.isEmpty_iff.mp hempty)
      · rw [h]
        rfl
      · rw [h]
        rfl
    rw [hback]
    exact lines_pairOfQuotes rest
  · simp only [hempty, List.append_assoc, List.singleton_append]
    have hline : ¬(fields = [] ∨ fields = [[]]) := by
      rw [← intercalate_encodeField_eq_nil_iff, ← List.isEmpty_iff]
      exact hempty
    cases fields with
    | nil => exact absurd (.inl rfl) hline
    | cons field fields =>
      have hbegun : field ≠ [] ∨ fields ≠ [] ∨ atLine false ≠ atLine false := by
        by_cases hfield : field = []
        · refine .inr (.inl fun hfields => hline (.inr ?_))
          rw [hfield, hfields]
        · exact .inl hfield
      exact lines_encodeFields .first field fields hbegun rest

end Scanner

/-! ## §5. The whole text -/

/-- The lines of a written text are the written ones. -/
theorem lines_flatMap_encodeLine (records : List (List (List Char))) :
    lines (records.flatMap encodeLine)
      = records.map fun fields => .record (readBack fields) := by
  unfold lines
  induction records with
  | nil => rfl
  | cons fields records ih =>
    rw [List.flatMap_cons, Scanner.lines_encodeLine, ih, List.map_cons]

/-- The row that is read back for a row: each cell as its text is read, and one absent cell for a row
that has none. -/
def reread (row : Row) : Row :=
  if row.isEmpty then [.absent] else row.map fun cell => .ofField cell.display

/-- The row on the line of a written row. -/
theorem row_readBack (row : Row) :
    (Line.record (readBack (row.map fun cell => cell.display.toList))).row
      = reread row := by
  cases row with
  | nil => rfl
  | cons cell row =>
    show ((cell :: row).map fun cell => cell.display.toList).map
        (fun field => Cell.ofField (String.ofList field))
      = (cell :: row).map fun cell => Cell.ofField cell.display
    rw [List.map_map]
    refine List.map_congr_left fun cell _ => ?_
    show Cell.ofField (String.ofList cell.display.toList) = Cell.ofField cell.display
    rw [String.ofList_toList]

/-- The columns on the line of a written header. -/
theorem columns_readBack {columns : List String} (h : columns ≠ []) :
    (Line.record (readBack (columns.map String.toList))).columns = columns := by
  cases columns with
  | nil => exact absurd rfl h
  | cons column columns =>
    show ((column :: columns).map String.toList).map String.ofList = column :: columns
    rw [List.map_map]
    have hid : String.ofList ∘ String.toList = id := funext fun _ => String.ofList_toList
    rw [hid, List.map_id]

theorem dropMark_of_head?_ne {text : List Char} (h : text.head? ≠ some '\uFEFF') :
    dropMark text = text := by
  unfold dropMark
  split
  next => exact absurd rfl h
  next => rfl

/-- Columns and rows are written and read back: the columns as they are, and for each row the row of its
texts.  Only a text that happens to begin with a byte order mark loses that. -/
theorem decode_encode (columns : List String) (rows : List Row) (hcolumns : columns ≠ []) :
    write columns rows = .ok (encode columns rows) ∧
    ((encode columns rows).toList.head? ≠ some '\uFEFF' →
      decode (encode columns rows) = (columns, rows.map reread)) := by
  refine ⟨write_eq columns rows, fun hmark => ?_⟩
  have hencode : (encode columns rows).toList
      = (columns.map String.toList ::
          rows.map fun row => row.map fun cell => cell.display.toList).flatMap encodeLine := by
    rw [encode, if_neg (by simpa using hcolumns), String.toList_ofList]
  unfold decode
  rw [dropMark_of_head?_ne hmark, hencode, lines_flatMap_encodeLine, List.map_cons,
    List.dropWhile_cons_of_neg (by simp [Line.isBlank])]
  show (_, _) = (_, _)
  rw [columns_readBack hcolumns, List.map_map, List.map_map]
  congr 1
  exact List.map_congr_left fun row _ => row_readBack row

/-- Commas, quotes, line ends, an absent cell and a row without cells are all written and read back. -/
theorem decode_encode_quoted :
    let columns := ["a,b", "", "\"c\""]
    let rows : List Row := [[.text "x\r\ny", .absent], [], [.text "é\""]]
    let text := "\"a,b\",,\"\"\"c\"\"\"\n\"x\r\ny\",\n\"\"\n\"é\"\"\"\n"
    columns ≠ [] ∧ write columns rows = .ok text ∧ text.toList.head? ≠ some '\uFEFF' ∧
    decode text = (columns, [[.text "x\r\ny", .absent], [.absent], [.text "é\""]]) := by
  intro columns rows text
  have hcolumns : columns ≠ [] := by decide
  have htext : encode columns rows = text := by decide +kernel
  have hmark : text.toList.head? ≠ some '\uFEFF' := by decide +kernel
  have hreread : rows.map reread = [[.text "x\r\ny", .absent], [.absent], [.text "é\""]] := by
    decide +kernel
  obtain ⟨hwrite, hread⟩ := decode_encode columns rows hcolumns
  rw [htext] at hwrite hread
  rw [hreread] at hread
  exact ⟨hcolumns, hwrite, hmark, hread hmark⟩

end CsvQuery.Csv

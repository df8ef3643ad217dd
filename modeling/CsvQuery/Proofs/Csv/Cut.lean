/-
  CsvQuery.Proofs.Csv.Cut — lines first, then the fields of each line.

  A text can be read in two steps: it is cut into lines as they stand, quotes and all, and then each line
  into fields, whose quotes are taken off.  Both steps look for the same thing, the place where a field
  ends; outside quotes that is the next comma or line end, and in quotes it is that behind the quote that
  closes.  The scanner does both steps at once and comes to the same lines.

  Main results:
    • `splitField_append_of_split` — a field ends in its line where it ends in the text
    • `Scanner.lines_splitField` — the scanner behind a field
    • `Scanner.lines_splitLine` — the scanner behind a line
    • `lines_eq_map_cutLines` — the lines of the scanner are the lines of the cut
    • `decode_eq_decodeLines` — both ways of reading give one row for each line behind the header
-/
import CsvQuery.Proofs.Csv.Gap
import CsvQuery.Proofs.Csv.RoundTrip

namespace CsvQuery.Csv

/-! ## §1. Fields as they stand -/

/-- Whether a character ends a field outside quotes. -/
def endsField (c : Char) : Bool := c = ',' || isTerminator c

/-- The text in front of the next character that ends a field. -/
def plainPart (text : List Char) : List Char := text.takeWhile fun c => !endsField c

/-- The text from the next character on that ends a field. -/
def afterPlain (text : List Char) : List Char := text.dropWhile fun c => !endsField c

/-- The text up to the quote that closes it, with that quote, and the text behind.  A doubled quote closes
nothing, and what is never closed runs to the end. -/
def splitQuoted : List Char → List Char × List Char
  | [] => ([], [])
  | '"' :: '"' :: rest => ('"' :: '"' :: (splitQuoted rest).1, (splitQuoted rest).2)
  | '"' :: rest => (['"'], rest)
  | c :: rest => (c :: (splitQuoted rest).1, (splitQuoted rest).2)

/-- The first field as it stands, and the text behind it.  A quote opens only at the start. -/
def splitField : List Char → List Char × List Char
  | '"' :: text =>
    ('"' :: ((splitQuoted text).1 ++ plainPart (splitQuoted text).2),
      afterPlain (splitQuoted text).2)
  | text => (plainPart text, afterPlain text)

/-- The text of a field after its opening quote, with each doubled quote as one and without the quote that
closes. -/
def unquoted : List Char → List Char
  | [] => []
  | '"' :: '"' :: rest => '"' :: unquoted rest
  | '"' :: rest => rest
  | c :: rest => c :: unquoted rest

/-- The text that a field means. -/
def fieldText : List Char → List Char
  | '"' :: field => unquoted field
  | field => field

section Quotes

variable {c : Char} {text : List Char}

/-- A quote that is not doubled closes. -/
theorem splitQuoted_quote (h : text.head? ≠ some '"') : splitQuoted ('"' :: text) = (['"'], text) := by
  cases text with
  | nil => rfl
  | cons d text =>
    have hd : d ≠ '"' := fun hd => h (by rw [hd]; rfl)
    rw [splitQuoted]
    intro rest heq
    exact hd (List.cons.inj heq).1

theorem splitQuoted_cons (h : c ≠ '"') :
    splitQuoted (c :: text) = (c :: (splitQuoted text).1, (splitQuoted text).2) := by
  rw [splitQuoted]
  · exact fun rest hc _ => h hc
  · exact h

/-- Behind the quote that closes, a field is as it stands. -/
theorem unquoted_quote (h : text.head? ≠ some '"') : unquoted ('"' :: text) = text := by
  cases text with
  | nil => rfl
  | cons d text =>
    have hd : d ≠ '"' := fun hd => h (by rw [hd]; rfl)
    rw [unquoted]
    intro rest heq
    exact hd (List.cons.inj heq).1

theorem unquoted_cons (h : c ≠ '"') : unquoted (c :: text) = c :: unquoted text := by
  rw [unquoted]
  · exact fun rest hc _ => h hc
  · exact h

theorem splitField_of_ne (h : text.head? ≠ some '"') :
    splitField text = (plainPart text, afterPlain text) := by
  rw [splitField]
  intro rest heq
  exact h (by rw [heq]; rfl)

theorem fieldText_of_ne (h : text.head? ≠ some '"') : fieldText text = text := by
  rw [fieldText]
  intro rest heq
  exact h (by rw [heq]; rfl)

end Quotes

/-! ## §2. Where a field ends -/

theorem plainPart_append_afterPlain (text : List Char) : plainPart text ++ afterPlain text = text :=
  List.takeWhile_append_dropWhile

/-- Cutting behind the closing quote loses no character. -/
theorem splitQuoted_append (text : List Char) : (splitQuoted text).1 ++ (splitQuoted text).2 = text := by
  fun_induction splitQuoted text with
  | case1 => rfl
  | case2 rest ih => rw [List.cons_append, List.cons_append, ih]
  | case3 rest hrest => rfl
  | case4 c rest hpair hquote ih => rw [List.cons_append, ih]

/-- Cutting off a field loses no character. -/
theorem splitField_append (text : List Char) : (splitField text).1 ++ (splitField text).2 = text := by
  fun_cases splitField text with
  | case1 text =>
    rw [List.cons_append, List.append_assoc, plainPart_append_afterPlain, splitQuoted_append]
  | case2 => exact plainPart_append_afterPlain text

/-- Behind a quote that closes stands no further quote. -/
theorem head?_splitQuoted_ne (text : List Char) : (splitQuoted text).2.head? ≠ some '"' := by
  fun_induction splitQuoted text with
  | case1 => exact nofun
  | case2 rest ih => exact ih
  | case3 rest hrest =>
    intro hhead
    obtain ⟨rest, rfl⟩ := List.head?_eq_some_iff.mp hhead
    exact hrest rest rfl
  | case4 c rest hpair hquote ih => exact ih

/-- A text that can stand behind a field: none at all, or one that begins with what ends a field. -/
def EndsField (text : List Char) : Prop := ∀ c, text.head? = some c → endsField c = true

theorem EndsField.head?_ne {text : List Char} (h : EndsField text) : text.head? ≠ some '"' :=
  fun hquote => absurd (h '"' hquote) (by decide)

theorem endsField_afterPlain (text : List Char) : EndsField (afterPlain text) := by
  intro c hc
  have := List.head?_dropWhile_not (fun c => !endsField c) text
  rw [show text.dropWhile (fun c => !endsField c) = afterPlain text from rfl, hc] at this
  simpa using this

/-- What is behind a field begins with a comma or a line end, if with anything. -/
theorem endsField_splitField (text : List Char) : EndsField (splitField text).2 := by
  fun_cases splitField text with
  | case1 text => exact endsField_afterPlain _
  | case2 => exact endsField_afterPlain _

/-- Where a field ends, nothing of it is left. -/
theorem EndsField.split {text : List Char} (h : EndsField text) :
    plainPart text = [] ∧ afterPlain text = text := by
  cases text with
  | nil => exact ⟨rfl, rfl⟩
  | cons c text =>
    have hc : ¬(!endsField c) = true := by simp [h c rfl]
    exact ⟨List.takeWhile_cons_of_neg hc, List.dropWhile_cons_of_neg hc⟩

theorem forall_mem_plainPart (text : List Char) :
    ∀ c ∈ plainPart text, (!endsField c) = true :=
  List.all_eq_true.mp List.all_takeWhile

section Behind

variable {text behind : List Char}

/-- A part outside quotes ends where a field ends. -/
theorem plainPart_append (h : EndsField behind) :
    plainPart (plainPart text ++ behind) = plainPart text := by
  show List.takeWhile _ (plainPart text ++ behind) = _
  rw [List.takeWhile_append_of_pos (forall_mem_plainPart text)]
  show plainPart text ++ plainPart behind = _
  rw [h.split.1, List.append_nil]

theorem afterPlain_append (h : EndsField behind) : afterPlain (plainPart text ++ behind) = behind := by
  show List.dropWhile _ (plainPart text ++ behind) = _
  rw [List.dropWhile_append_of_pos (forall_mem_plainPart text)]
  exact h.split.2

/-- A text outside quotes does not begin with a quote when what it is cut from does not. -/
theorem head?_plainPart_append_ne (htext : text.head? ≠ some '"') (h : EndsField behind) :
    (plainPart text ++ behind).head? ≠ some '"' := by
  cases text with
  | nil => exact h.head?_ne
  | cons c text =>
    by_cases hc : (!endsField c) = true
    · have hcons : plainPart (c :: text) = c :: plainPart text := List.takeWhile_cons_of_pos hc
      rw [hcons]
      exact htext
    · have hnil : plainPart (c :: text) = [] := List.takeWhile_cons_of_neg hc
      rw [hnil]
      exact h.head?_ne

theorem head?_plainPart_ne (htext : text.head? ≠ some '"') :
    (plainPart text).head? ≠ some '"' := by
  rw [← List.append_nil (plainPart text)]
  exact head?_plainPart_append_ne htext nofun

/-- Quoted text ends where it is closed, whatever stands behind. -/
theorem splitQuoted_append_of_split (hopen : (splitQuoted text).2 = [] → behind = [])
    (hbehind : behind.head? ≠ some '"') :
    splitQuoted ((splitQuoted text).1 ++ behind) = ((splitQuoted text).1, behind) := by
  fun_induction splitQuoted text with
  | case1 =>
    -- never closed: more text would belong to it, so there is none
    rw [hopen rfl]
    rfl
  | case2 rest ih => rw [List.cons_append, List.cons_append, splitQuoted, ih hopen]
  | case3 rest hrest => exact splitQuoted_quote hbehind
  | case4 c rest hpair hquote ih =>
    rw [List.cons_append, splitQuoted_cons hquote, ih hopen]

/-- A field ends in its line where it ends in the text. -/
theorem splitField_append_of_split (hlast : (splitField text).2 = [] → behind = [])
    (hbehind : EndsField behind) :
    splitField ((splitField text).1 ++ behind) = ((splitField text).1, behind) := by
  by_cases hquote : text.head? = some '"'
  · -- what stands behind the closing quote begins with no quote, so the quoted part ends where it did
    obtain ⟨text, rfl⟩ := List.head?_eq_some_iff.mp hquote
    have hopen : (splitQuoted text).2 = [] → plainPart (splitQuoted text).2 ++ behind = [] := by
      intro hnil
      have hlast : afterPlain (splitQuoted text).2 = [] → behind = [] := hlast
      rw [hnil] at hlast ⊢
      exact hlast rfl
    have hhead := head?_plainPart_append_ne (head?_splitQuoted_ne text) hbehind
    have hsplit := splitQuoted_append_of_split hopen hhead
    show splitField ('"' :: ((splitQuoted text).1 ++ plainPart (splitQuoted text).2) ++ behind) = _
    rw [List.cons_append, List.append_assoc, splitField, hsplit, plainPart_append hbehind,
      afterPlain_append hbehind]
    rfl
  · rw [splitField_of_ne hquote,
      splitField_of_ne (head?_plainPart_append_ne hquote hbehind), plainPart_append hbehind,
      afterPlain_append hbehind]

/-- Taking the quotes off leaves the text behind the closing one as it stands. -/
theorem unquoted_append_of_split (hopen : (splitQuoted text).2 = [] → behind = [])
    (hbehind : behind.head? ≠ some '"') :
    unquoted ((splitQuoted text).1 ++ behind) = unquoted (splitQuoted text).1 ++ behind := by
  fun_induction splitQuoted text with
  | case1 =>
    rw [hopen rfl]
    rfl
  | case2 rest ih =>
    rw [List.cons_append, List.cons_append, unquoted, unquoted, ih hopen, List.cons_append]
  | case3 rest hrest => exact unquoted_quote hbehind
  | case4 c rest hpair hquote ih =>
    rw [List.cons_append, unquoted_cons hquote, unquoted_cons hquote, ih hopen, List.cons_append]

end Behind

/-! ## §3. Lines as they stand -/

/-- There is less behind a field and the character that ends it than there was. -/
theorem length_lt_of_splitField {text field rest : List Char} {c : Char}
    (h : splitField text = (field, c :: rest)) : rest.length < text.length := by
  have hlength := congrArg List.length (splitField_append text)
  rw [h, List.length_append, List.length_cons] at hlength
  omega

/-- The first line as it stands, without its end, and the text from its end on. -/
def splitLine (text : List Char) : List Char × List Char :=
  match _h : splitField text with
  | (field, ',' :: rest) => (field ++ ',' :: (splitLine rest).1, (splitLine rest).2)
  | (field, rest) => (field, rest)
termination_by text.length
decreasing_by all_goals exact length_lt_of_splitField _h

/-- The texts of the fields of a line. -/
def lineFields (line : List Char) : List (List Char) :=
  match _h : splitField line with
  | (field, ',' :: rest) => fieldText field :: lineFields rest
  | (field, _) => [fieldText field]
termination_by line.length
decreasing_by exact length_lt_of_splitField _h

/-- The text behind the line end that it begins with, where a pair is one line end. -/
def afterTerminator : List Char → List Char
  | [] => []
  | '\r' :: '\n' :: rest => rest
  | _ :: rest => rest

/-- Cutting off a line loses no character. -/
theorem splitLine_append (text : List Char) : (splitLine text).1 ++ (splitLine text).2 = text := by
  fun_induction splitLine text with
  | case1 text field rest h ih =>
    have happend := splitField_append text
    rw [h] at happend
    rw [List.append_assoc, List.cons_append, ih]
    exact happend
  | case2 text field rest hrest h =>
    have happend := splitField_append text
    rw [h] at happend
    exact happend

/-- What a line leaves begins with a line end, if with anything. -/
theorem isTerminator_of_head?_splitLine {text : List Char} {c : Char}
    (hc : (splitLine text).2.head? = some c) : isTerminator c = true := by
  fun_induction splitLine text with
  | case1 text field rest h ih => exact ih hc
  | case2 text field rest hrest h =>
    have hends := endsField_splitField text c
    rw [h] at hends
    obtain ⟨behind, rfl⟩ := List.head?_eq_some_iff.mp hc
    have hcomma : c ≠ ',' := fun hcomma => hrest behind (by rw [hcomma])
    simpa [endsField, hcomma] using hends rfl

/-- A line is empty exactly when the text begins with its end. -/
theorem splitLine_fst_eq_nil_iff (c : Char) (text : List Char) :
    (splitLine (c :: text)).1 = [] ↔ isTerminator c = true := by
  have happend := splitLine_append (c :: text)
  constructor
  · intro hnil
    rw [hnil, List.nil_append] at happend
    exact isTerminator_of_head?_splitLine (by rw [happend]; rfl)
  · intro hc
    have hends : EndsField (c :: text) := fun d hd => by
      rw [← Option.some.inj hd, endsField, hc, Bool.or_true]
    have hsplit : splitField (c :: text) = ([], c :: text) := by
      rw [splitField_of_ne hends.head?_ne, hends.split.1, hends.split.2]
    rw [splitLine]
    split
    next field rest h =>
      rw [hsplit] at h
      cases h
      exact absurd hc (by decide)
    next field rest hrest h =>
      rw [hsplit] at h
      cases h
      rfl

theorem length_afterTerminator_le (text : List Char) :
    (afterTerminator text).length ≤ text.length - 1 := by
  unfold afterTerminator
  split <;> simp only [List.length_nil, List.length_cons] <;> omega

/-- Each line with its end takes up some of the text. -/
theorem length_afterTerminator_splitLine_lt (c : Char) (text : List Char) :
    (afterTerminator (splitLine (c :: text)).2).length < (c :: text).length := by
  have happend := congrArg List.length (splitLine_append (c :: text))
  have hle := length_afterTerminator_le (splitLine (c :: text)).2
  rw [List.length_append] at happend
  rw [List.length_cons] at happend ⊢
  omega

/-- The lines of a text as they stand.  What is left at the end is a line only if it has a character. -/
def cutLines : List Char → List (List Char)
  | [] => []
  | c :: text =>
    (splitLine (c :: text)).1 :: cutLines (afterTerminator (splitLine (c :: text)).2)
termination_by text => text.length
decreasing_by exact length_afterTerminator_splitLine_lt c text

/-- A field in front of a comma is a field of its line. -/
theorem lineFields_append {text field rest : List Char} (h : splitField text = (field, ',' :: rest))
    (line : List Char) : lineFields (field ++ ',' :: line) = fieldText field :: lineFields line := by
  have hbehind : EndsField (',' :: line) := fun c hc => by
    rw [← Option.some.inj hc]
    rfl
  have hlast : (splitField text).2 = [] → ',' :: line = [] := by
    rw [h]
    exact nofun
  have hsplit := splitField_append_of_split hlast hbehind
  rw [h] at hsplit
  dsimp only at hsplit
  rw [lineFields]
  split
  next field' rest' h' =>
    rw [hsplit] at h'
    cases h'
    rfl
  next field' rest' hrest h' =>
    rw [hsplit] at h'
    cases h'
    exact absurd rfl (hrest line)

/-- The last field of a line is its only one when the line is what it is read from. -/
theorem lineFields_last (text : List Char) :
    lineFields (splitField text).1 = [fieldText (splitField text).1] := by
  have hsplit : splitField ((splitField text).1 ++ []) = ((splitField text).1, []) :=
    splitField_append_of_split (fun _ => rfl) nofun
  rw [List.append_nil] at hsplit
  rw [lineFields]
  split
  next field' rest' h' =>
    rw [hsplit] at h'
    cases h'
  next field' rest' hrest h' =>
    rw [hsplit] at h'
    cases h'
    rfl

/-! ## §4. The scanner along a line -/

namespace Scanner

section Field

variable {c : Char} {text field : List Char} {fields : List (List Char)}

/-- Behind a quote that closes, the scanner goes on as in text outside quotes. -/
theorem lines_closing (h : text.head? ≠ some '"') :
    lines ⟨.closing, field, fields⟩ text = lines ⟨.plain, field, fields⟩ text := by
  cases text with
  | nil => rfl
  | cons c text =>
    have hc : c ≠ '"' := fun hc => h (by rw [hc]; rfl)
    have hstep : step ⟨.closing, field, fields⟩ c = step ⟨.plain, field, fields⟩ c := if_neg hc
    rw [lines, lines, hstep]

/-- Before a field that no quote opens, the scanner goes on as in text outside quotes. -/
theorem lines_fieldStart (h : text.head? ≠ some '"') :
    lines ⟨.fieldStart, field, fields⟩ text = lines ⟨.plain, field, fields⟩ text := by
  cases text with
  | nil => rfl
  | cons c text =>
    have hc : c ≠ '"' := fun hc => h (by rw [hc]; rfl)
    have hstep : step ⟨.fieldStart, field, fields⟩ c = step ⟨.plain, field, fields⟩ c := if_neg hc
    rw [lines, lines, hstep]

/-- Text between quotes is read to the quote that closes it, or to the end. -/
theorem lines_splitQuoted (text field : List Char) (fields : List (List Char)) :
    lines ⟨.quoted, field, fields⟩ text
      = lines ⟨.closing, (unquoted (splitQuoted text).1).reverse ++ field, fields⟩
          (splitQuoted text).2 := by
  fun_induction splitQuoted text generalizing field with
  | case1 => rfl
  | case2 rest ih =>
    -- the second quote takes back what the first one has closed
    rw [lines_of_step_none rfl, lines_of_step_none rfl, unquoted, List.reverse_cons,
      List.append_assoc]
    exact ih ('"' :: field)
  | case3 rest hrest =>
    rw [lines_of_step_none rfl]
    rfl
  | case4 c rest hpair hquote ih =>
    have hstep : step ⟨.quoted, field, fields⟩ c = (none, ⟨.quoted, c :: field, fields⟩) :=
      if_neg hquote
    rw [lines_of_step_none hstep, unquoted_cons hquote, List.reverse_cons, List.append_assoc]
    exact ih (c :: field)

/-- Text outside quotes is read to what ends the field. -/
theorem lines_plainPart (text field : List Char) (fields : List (List Char)) :
    lines ⟨.plain, field, fields⟩ text
      = lines ⟨.plain, (plainPart text).reverse ++ field, fields⟩ (afterPlain text) := by
  induction text generalizing field with
  | nil => rfl
  | cons c text ih =>
    cases hc : endsField c with
    | true =>
      have hends : EndsField (c :: text) := fun d hd => by rw [← Option.some.inj hd, hc]
      rw [hends.split.1, hends.split.2]
      rfl
    | false =>
      have hne : c ≠ ',' ∧ c ≠ '\r' ∧ c ≠ '\n' := by simpa [endsField, isTerminator] using hc
      have hstep : step ⟨.plain, field, fields⟩ c = (none, ⟨.plain, c :: field, fields⟩) := by
        show stepUnquoted _ c = _
        rw [stepUnquoted, if_neg hne.1, if_neg hne.2.2, if_neg hne.2.1]
        rfl
      have hpart : plainPart (c :: text) = c :: plainPart text :=
        List.takeWhile_cons_of_pos (by rw [hc]; rfl)
      have hafter : afterPlain (c :: text) = afterPlain text :=
        List.dropWhile_cons_of_pos (by rw [hc]; rfl)
      rw [lines_of_step_none hstep, hpart, hafter, List.reverse_cons, List.append_assoc]
      exact ih (c :: field)

/-- A field is read to its end, and its text is what it means. -/
theorem lines_splitField (text : List Char) (fields : List (List Char)) :
    lines ⟨.fieldStart, [], fields⟩ text
      = lines ⟨.plain, (fieldText (splitField text).1).reverse, fields⟩ (splitField text).2 := by
  by_cases hquote : text.head? = some '"'
  · -- the quoted part first, then what is appended to it
    obtain ⟨text, rfl⟩ := List.head?_eq_some_iff.mp hquote
    have hhead := head?_splitQuoted_ne text
    have htext : fieldText (splitField ('"' :: text)).1
        = unquoted (splitQuoted text).1 ++ plainPart (splitQuoted text).2 := by
      show unquoted ((splitQuoted text).1 ++ plainPart (splitQuoted text).2) = _
      apply unquoted_append_of_split
      · intro hnil
        rw [hnil]
        rfl
      · exact head?_plainPart_ne hhead
    rw [lines_of_step_none rfl, htext, List.reverse_append]
    show lines ⟨.quoted, [], fields⟩ text = lines _ (afterPlain (splitQuoted text).2)
    rw [lines_splitQuoted, List.append_nil, lines_closing hhead, lines_plainPart]
  · rw [lines_fieldStart hquote, splitField_of_ne hquote, lines_plainPart, List.append_nil]
    rw [fieldText_of_ne (head?_plainPart_ne hquote)]

end Field

/-- Before a line, a character that is no line feed is read alike, whatever has ended the line before. -/
theorem step_lineStart {c : Char} (h : c ≠ '\n') (returned : Bool) :
    (atLine returned).step c = (atLine false).step c := by
  show (if c = '"' then _ else if returned = true ∧ c = '\n' then _ else _)
    = if c = '"' then _ else if false = true ∧ c = '\n' then _ else _
  rw [if_neg (fun hpair : returned = true ∧ c = '\n' => h hpair.2),
    if_neg (fun hpair : false = true ∧ c = '\n' => h hpair.2)]
  rfl

/-- Behind a line end, the scanner goes on as from the start; the line feed of a pair is passed over. -/
theorem lines_afterTerminator {c : Char} (hc : isTerminator c = true) (text : List Char) :
    (atLine (decide (c = '\r'))).lines text = (atLine false).lines (afterTerminator (c :: text)) := by
  by_cases hreturn : c = '\r'
  · subst hreturn
    cases text with
    | nil => rfl
    | cons d text =>
      by_cases hd : d = '\n'
      · rw [hd]
        exact lines_of_step_none rfl text
      · have hafter : afterTerminator ('\r' :: d :: text) = d :: text := by
          rw [afterTerminator]
          exact fun rest _ heq => hd (List.cons.inj heq).1
        rw [hafter, lines, lines, step_lineStart hd]
  · have hafter : afterTerminator (c :: text) = text := by
      rw [afterTerminator]
      exact fun rest heq _ => hreturn heq
    rw [hafter, decide_eq_false hreturn]

/-- Before a line, a character that ends none is read as at the start of a field. -/
theorem step_atLine {c : Char} (hc : isTerminator c = false) :
    (atLine false).step c = step ⟨.fieldStart, [], []⟩ c := by
  have hne := isTerminator_eq_false_iff.mp hc
  show (if c = '"' then _ else if false = true ∧ c = '\n' then _ else stepUnquoted _ c)
    = if c = '"' then _ else stepUnquoted _ c
  rw [if_neg (fun hpair : false = true ∧ c = '\n' => hne.2 hpair.2)]
  unfold stepUnquoted
  rw [if_neg hne.1, if_neg hne.2, if_neg hne.1, if_neg hne.2]
  rfl

/-- A line is read to its end, after the fields before. -/
theorem lines_splitLine (text : List Char) (fields : List (List Char)) :
    lines ⟨.fieldStart, [], fields⟩ text
      = .record (fields.reverse ++ lineFields (splitLine text).1)
          :: (atLine false).lines (afterTerminator (splitLine text).2) := by
  -- each comma puts one more field behind the scanner and leaves the same line to be read
  fun_induction splitLine text generalizing fields with
  | case1 text field rest h ih =>
    have hcomma : step ⟨.plain, (fieldText field).reverse, fields⟩ ','
        = (none, ⟨.fieldStart, [], fieldText field :: fields⟩) := by
      show (none, _) = _
      rw [List.reverse_reverse]
    rw [lines_splitField, h, lines_of_step_none hcomma, ih, lineFields_append h, List.reverse_cons,
      List.append_assoc, List.singleton_append]
  | case2 text field rest hrest h =>
    -- no further field: the line ends here, or the text does, and the scanner hands the fields out
    have hends := endsField_splitField text
    have hlast := lineFields_last text
    rw [h] at hends hlast
    rw [lines_splitField, h, hlast]
    cases rest with
    | nil =>
      show [Line.record ((fieldText field).reverse.reverse :: fields).reverse] = _
      rw [List.reverse_reverse, List.reverse_cons]
      rfl
    | cons c rest =>
      have hc : isTerminator c = true := by
        have hc := hends c rfl
        have hcomma : c ≠ ',' := fun hcomma => hrest rest (by rw [hcomma])
        simpa [endsField, hcomma] using hc
      have hstep : step ⟨.plain, (fieldText field).reverse, fields⟩ c
          = (some (.record (fields.reverse ++ [fieldText field])), atLine (decide (c = '\r'))) := by
        show stepUnquoted _ c = _
        rw [stepUnquoted_of_isTerminator hc]
        show (some (Line.record ((fieldText field).reverse.reverse :: fields).reverse), _) = _
        rw [List.reverse_reverse, List.reverse_cons]
      rw [lines_of_step_some hstep, lines_afterTerminator hc]

end Scanner

/-! ## §5. The whole text -/

/-- The line that stands as a text. -/
def Line.ofText (line : List Char) : Line := if line.isEmpty then .blank else .record (lineFields line)

/-- The scanner reads the lines that the text is cut into. -/
theorem lines_eq_map_cutLines (text : List Char) : lines text = (cutLines text).map Line.ofText := by
  unfold lines
  fun_induction cutLines text with
  | case1 => rfl
  | case2 c text ih =>
    rw [List.map_cons, ← ih, Line.ofText]
    cases hc : isTerminator c with
    | true =>
      -- nothing stands in front of the line end
      have hnil := (splitLine_fst_eq_nil_iff c text).mpr hc
      have hbehind := splitLine_append (c :: text)
      rw [hnil, List.nil_append] at hbehind
      have hstep : (Scanner.atLine false).step c = (some .blank, Scanner.atLine (decide (c = '\r'))) := by
        have hquote : c ≠ '"' := fun hquote => absurd hc (by rw [hquote]; decide)
        show (if c = '"' then _ else if false = true ∧ c = '\n' then _ else _) = _
        rw [if_neg hquote, if_neg (fun hpair => nomatch hpair.1),
          Scanner.stepUnquoted_of_isTerminator hc]
        rfl
      rw [hnil, hbehind, if_pos List.isEmpty_nil, Scanner.lines_of_step_some hstep,
        Scanner.lines_afterTerminator hc]
    | false =>
      have hline : ¬(splitLine (c :: text)).1.isEmpty = true := by
        rw [List.isEmpty_iff, splitLine_fst_eq_nil_iff, hc]
        decide
      rw [if_neg hline, Scanner.lines, Scanner.step_atLine hc, ← Scanner.lines,
        Scanner.lines_splitLine]
      rfl

/-- The row that stands as a line. -/
def lineRow (line : List Char) : Row :=
  if line.isEmpty then [.absent] else (lineFields line).map fun field => .ofField (String.ofList field)

/-- The row on a line, read by its fields, is the row of the line as it stands. -/
theorem row_ofText (line : List Char) : (Line.ofText line).row = lineRow line := by
  unfold Line.ofText lineRow
  split <;> rfl

/-- A line is blank exactly when it has no characters. -/
theorem isBlank_ofText (line : List Char) : (Line.ofText line).isBlank = line.isEmpty := by
  unfold Line.ofText
  cases line <;> rfl

/-- The columns and rows of a text, in one pass over its lines: the first line with a character names the
columns, and every line behind it is a row. -/
def decodeLines (text : String) : List String × List Row :=
  match (cutLines (dropMark text.toList)).dropWhile List.isEmpty with
  | [] => ([], [])
  | header :: lines => ((lineFields header).map String.ofList, lines.map lineRow)

/-- Reading character by character, and counting the lines that a reader of records steps over, both
account for every line of the text once. -/
theorem decode_eq_decodeLines (text : String) :
    decode text = decodeLines text ∧ decodeByGaps text = decodeLines text := by
  rw [decodeByGaps_eq_decode, and_self]
  have hblank : Line.isBlank ∘ Line.ofText = List.isEmpty := funext isBlank_ofText
  unfold decode decodeLines
  rw [lines_eq_map_cutLines, List.dropWhile_map, hblank]
  have hhead := List.head?_dropWhile_not List.isEmpty (cutLines (dropMark text.toList))
  cases hlines : (cutLines (dropMark text.toList)).dropWhile List.isEmpty with
  | nil => rfl
  | cons header lines =>
    rw [hlines] at hhead
    have hheader : Line.ofText header = .record (lineFields header) := if_neg (by rw [hhead]; decide)
    show ((Line.ofText header).columns, (lines.map Line.ofText).map Line.row) = _
    rw [hheader, List.map_map]
    congr 1
    exact List.map_congr_left fun line _ => row_ofText line

-- A pair left half read, a line end in quotes, a lone carriage return and a line of two quotes.
example : decodeByGaps "\n\na\r\n\"1\n\n2\"\r\n\r\n\r3\n\"\"\n\n"
    = (["a"], [[.text "1\n\n2"], [.absent], [.absent], [.int 3], [.absent], [.absent]]) := by
  decide +kernel

end CsvQuery.Csv

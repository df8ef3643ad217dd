/-
  CsvQuery.Proofs.Csv.Gap — the gaps between records hold the blank lines.

  Followed one character at a time, the text since the last record is worth the blank lines that were
  met in it and, while no new record has begun, those that are still to come before one.  At the end of
  the next record nothing is left to come, so what the gap is worth is what was met.

  Main results:
    • `blankLines_eq_lineEnds` — behind an ended record, the gap is counted from where the scanner stands
    • `Scanner.counted` — the step: what one character adds to the count
    • `Scanner.rowsOfSpans_spans` — the run: the rows of the records and their gaps are the rows of the lines
    • `decodeByGaps_eq_decode` — both ways of reading give the same columns and rows
-/
import CsvQuery.Csv.Gap

namespace CsvQuery.Csv

/-! ## §1. Line ends as the scanner meets them -/

/-- The number of lines that end before a text has any other character than line ends, where a line feed
at its start ends none if a carriage return has come before. -/
def lineEnds (returned : Bool) : List Char → Nat
  | [] => 0
  | c :: rest =>
    if c = '\n' then if returned then lineEnds false rest else lineEnds false rest + 1
    else if c = '\r' then lineEnds true rest + 1
    else 0

section LineEnds

variable {c : Char} {returned : Bool}

/-- A character that ends no line is neither of the two that do. -/
theorem isTerminator_eq_false_iff : isTerminator c = false ↔ c ≠ '\r' ∧ c ≠ '\n' := by
  simp [isTerminator]

theorem eq_lineFeed_of_isTerminator (h : isTerminator c = true) (hne : c ≠ '\r') : c = '\n' := by
  simpa [isTerminator, hne] using h

/-- A character that ends a line is one line end, unless it is the second one of a pair. -/
theorem lineEnds_of_isTerminator (h : isTerminator c = true) (hpair : ¬(returned = true ∧ c = '\n'))
    (rest : List Char) : lineEnds returned (c :: rest) = lineEnds (decide (c = '\r')) rest + 1 := by
  by_cases hreturn : c = '\r'
  · rw [hreturn]
    rfl
  · have hfeed := eq_lineFeed_of_isTerminator h hreturn
    have hreturned : ¬returned = true := fun h => hpair ⟨h, hfeed⟩
    rw [lineEnds, if_pos hfeed, if_neg hreturned, decide_eq_false hreturn]

/-- Nothing is counted before any other character. -/
theorem lineEnds_of_not_isTerminator (h : isTerminator c = false) (rest : List Char) :
    lineEnds returned (c :: rest) = 0 := by
  have hne := isTerminator_eq_false_iff.mp h
  rw [lineEnds, if_neg hne.2, if_neg hne.1]

/-- A carriage return counts for what follows only if a line feed does. -/
theorem lineEnds_eq_of_head?_ne {text : List Char} (h : text.head? ≠ some '\n') :
    lineEnds returned text = lineEnds false text := by
  cases text with
  | nil => rfl
  | cons c rest =>
    have hc : c ≠ '\n' := fun hc => h (by rw [hc]; rfl)
    rw [lineEnds, lineEnds, if_neg hc, if_neg hc]

end LineEnds

/-- Between two lines, the line ends counted are all that lead the text. -/
theorem lineEnds_eq_leadingTerminators (text : List Char) :
    lineEnds false text = leadingTerminators text := by
  fun_induction leadingTerminators text with
  | case1 => rfl
  | case2 rest ih => rw [← ih]; rfl
  | case3 c rest hpair hc ih =>
    rw [lineEnds_of_isTerminator hc (by simp), ih.symm]
    by_cases hreturn : c = '\r'
    · -- no line feed follows, so none is passed over
      have hhead : rest.head? ≠ some '\n' := by
        intro hfeed
        obtain ⟨behind, hbehind⟩ := List.head?_eq_some_iff.mp hfeed
        exact hpair behind hreturn hbehind
      rw [lineEnds_eq_of_head?_ne hhead]
    · rw [decide_eq_false hreturn]
  | case4 c rest hpair hc => exact lineEnds_of_not_isTerminator (eq_false_of_ne_true hc) rest

/-- After a carriage return, a line feed at the start is passed over. -/
theorem lineEnds_true (text : List Char) :
    lineEnds true text = leadingTerminators (afterPair (some '\r') text) := by
  by_cases hfeed : text.head? = some '\n'
  · obtain ⟨rest, hrest⟩ := List.head?_eq_some_iff.mp hfeed
    rw [hrest]
    exact lineEnds_eq_leadingTerminators rest
  · have hpair : afterPair (some '\r') text = text := by
      unfold afterPair
      split
      next => exact absurd rfl hfeed
      next => rfl
    rw [hpair, lineEnds_eq_of_head?_ne hfeed, lineEnds_eq_leadingTerminators]

theorem afterPair_of_ne {c : Char} (h : c ≠ '\r') (read : List Char) :
    afterPair (some c) read = read := by
  unfold afterPair
  split
  next heq => exact absurd (Option.some.inj heq) h
  next => rfl

/-- Behind a record that a line end has ended, the gap is counted as the scanner goes on from there. -/
theorem blankLines_eq_lineEnds {c : Char} (hc : isTerminator c = true) (read : List Char) :
    blankLines (some c) read = lineEnds (decide (c = '\r')) read := by
  unfold blankLines
  dsimp only
  rw [if_pos hc]
  by_cases hreturn : c = '\r'
  · rw [hreturn, decide_eq_true rfl, lineEnds_true]
  · rw [decide_eq_false hreturn, lineEnds_eq_leadingTerminators, afterPair_of_ne hreturn]

theorem blankLines_nil (previous : Option Char) : blankLines previous [] = 0 := by
  have hgap : afterPair previous [] = [] := by
    unfold afterPair
    split
    next heq => cases heq
    next => rfl
  unfold blankLines
  rw [hgap]
  cases previous with
  | none => rfl
  | some c => exact ite_self 0

/-! ## §2. One character -/

namespace Scanner

variable {s : Scanner} {c : Char}

/-- The number of blank lines in a text before anything else begins, none if a record has begun. -/
def blanksAhead (s : Scanner) (text : List Char) : Nat :=
  match s.mode with
  | .lineStart returned => lineEnds returned text
  | _ => 0

/-- What one character does: nothing comes out, or a blank line does, or it ends a record.  Each time,
what is ahead of the scanner is what has come out and what is ahead then. -/
inductive Counted (s : Scanner) (c : Char) : Prop where
  | silent (next : Scanner) (step : s.step c = (none, next))
      (count : ∀ rest, s.blanksAhead (c :: rest) = next.blanksAhead rest)
  | blank (next : Scanner) (step : s.step c = (some .blank, next))
      (count : ∀ rest, s.blanksAhead (c :: rest) = next.blanksAhead rest + 1)
  | record (fields : List (List Char))
      (step : s.step c = (some (.record fields), atLine (decide (c = '\r'))))
      (ended : isTerminator c = true) (count : ∀ rest, s.blanksAhead (c :: rest) = 0)

/-- Outside quotes a line end ends the line. -/
theorem stepUnquoted_of_isTerminator (h : isTerminator c = true) :
    s.stepUnquoted c = (some s.line, atLine (decide (c = '\r'))) := by
  by_cases hreturn : c = '\r'
  · rw [hreturn]
    rfl
  · rw [eq_lineFeed_of_isTerminator h hreturn]
    rfl

/-- Outside quotes any other character ends a field or is kept. -/
theorem stepUnquoted_of_not_isTerminator (h : isTerminator c = false) :
    s.stepUnquoted c = (none, ⟨.fieldStart, [], s.field.reverse :: s.fields⟩) ∨
      s.stepUnquoted c = (none, s.keep c .plain) := by
  have hne := isTerminator_eq_false_iff.mp h
  unfold stepUnquoted
  rw [if_neg hne.1, if_neg hne.2]
  -- what is left is a comma, or a character of the field
  split
  · exact .inl rfl
  · exact .inr rfl

/-- Outside quotes, in a record that has begun. -/
theorem counted_of_stepUnquoted (hstep : s.step c = s.stepUnquoted c)
    (hzero : ∀ text, s.blanksAhead text = 0) {fields : List (List Char)}
    (hline : s.line = .record fields) : s.Counted c := by
  cases hc : isTerminator c with
  | true =>
    refine .record fields ?_ hc fun rest => hzero _
    rw [hstep, stepUnquoted_of_isTerminator hc, hline]
  | false =>
    rcases stepUnquoted_of_not_isTerminator (s := s) hc with hnext | hnext
    · exact .silent _ (hstep.trans hnext) fun rest => hzero _
    · exact .silent _ (hstep.trans hnext) fun rest => hzero _

/-- At the start of a line, a character is the rest of a line end, a blank line, or what begins a record. -/
theorem counted_lineStart (returned : Bool) (field : List Char) (fields : List (List Char)) :
    Counted ⟨.lineStart returned, field, fields⟩ c := by
  by_cases hquote : c = '"'
  · subst hquote
    exact .silent _ rfl fun rest => rfl
  · by_cases hpair : returned = true ∧ c = '\n'
    · -- the line feed of a pair ends no line of its own
      obtain ⟨hreturned, hfeed⟩ := hpair
      subst hreturned hfeed
      exact .silent (atLine false) rfl fun rest => rfl
    · have hstep : step ⟨.lineStart returned, field, fields⟩ c
          = stepUnquoted ⟨.lineStart returned, field, fields⟩ c := by
        show (if c = '"' then _ else if returned = true ∧ c = '\n' then _ else _) = _
        rw [if_neg hquote, if_neg hpair]
      cases hc : isTerminator c with
      | true =>
        refine .blank (atLine (decide (c = '\r'))) ?_ ?_
        · rw [hstep, stepUnquoted_of_isTerminator hc]
          rfl
        · exact lineEnds_of_isTerminator hc hpair
      | false =>
        -- a record begins, so no blank line is ahead any more
        rcases stepUnquoted_of_not_isTerminator (s := ⟨.lineStart returned, field, fields⟩) hc
          with hnext | hnext
        · exact .silent _ (hstep.trans hnext) (lineEnds_of_not_isTerminator hc)
        · exact .silent _ (hstep.trans hnext) (lineEnds_of_not_isTerminator hc)

/-- Every character is accounted for. -/
theorem counted (s : Scanner) (c : Char) : s.Counted c := by
  obtain ⟨mode, field, fields⟩ := s
  -- only before a line is there anything ahead; elsewhere both sides of the count are zero
  cases mode with
  | lineStart returned => exact counted_lineStart returned field fields
  | plain => exact counted_of_stepUnquoted rfl (fun _ => rfl) rfl
  | quoted =>
    by_cases hquote : c = '"'
    · exact .silent _ (if_pos hquote) fun rest => rfl
    · exact .silent _ (if_neg hquote) fun rest => rfl
  | fieldStart =>
    by_cases hquote : c = '"'
    · exact .silent _ (if_pos hquote) fun rest => rfl
    · exact counted_of_stepUnquoted (if_neg hquote) (fun _ => rfl) rfl
  | closing =>
    by_cases hquote : c = '"'
    · exact .silent _ (if_pos hquote) fun rest => rfl
    · exact counted_of_stepUnquoted (if_neg hquote) (fun _ => rfl) rfl

/-! ## §3. All records -/

theorem blanksAhead_nil : s.blanksAhead [] = 0 := by
  unfold blanksAhead
  split <;> rfl

/-- The end of the text ends a record or nothing. -/
theorem last?_cases (s : Scanner) : s.last? = none ∨ ∃ fields, s.last? = some (.record fields) := by
  obtain ⟨mode, field, fields⟩ := s
  cases mode with
  | lineStart returned => exact .inl rfl
  | _ => exact .inr ⟨_, rfl⟩

theorem rowsOfSpans_nil_nil (previous : Option Char) : rowsOfSpans previous [] [] = [] := by
  rw [rowsOfSpans, blankLines_nil, List.replicate_zero]

/-- Behind an ended record nothing has been met yet, and all that the gap is worth is ahead. -/
theorem blankLines_of_ended (h : isTerminator c = true) (rest : List Char) :
    blankLines (some c) ([].reverse ++ rest)
      = 0 + (atLine (decide (c = '\r'))).blanksAhead rest := by
  rw [Nat.zero_add]
  exact blankLines_eq_lineEnds h rest

/-- The rows of the records and their gaps are the rows of the lines, with those in front that were met
before in the gap so far. -/
theorem rowsOfSpans_spans {previous : Char} {read text : List Char} {met : Nat}
    (hmet : ∀ rest, blankLines (some previous) (read.reverse ++ rest) = met + s.blanksAhead rest) :
    rowsOfSpans (some previous) (s.spans read text).2 (s.spans read text).1
      = List.replicate met [.absent] ++ (s.lines text).map Line.row := by
  -- what has been met grows with each blank line, and the end of a record settles it
  induction text generalizing s previous read met with
  | nil =>
    have hgap : blankLines (some previous) read.reverse = met := by
      have := hmet []
      rwa [List.append_nil, blanksAhead_nil] at this
    rcases s.last?_cases with hlast | ⟨fields, hlast⟩
    · rw [spans, lines, hlast]
      dsimp only
      rw [rowsOfSpans, hgap]
      exact (List.append_nil _).symm
    · rw [spans, lines, hlast]
      dsimp only
      rw [rowsOfSpans, hgap, rowsOfSpans_nil_nil]
      rfl
  | cons c text ih =>
    cases s.counted c with
    | silent next hstep hcount =>
      rw [spans, lines, hstep]
      refine ih fun rest => ?_
      rw [List.reverse_cons, List.append_assoc, List.singleton_append, hmet, hcount]
    | blank next hstep hcount =>
      have hmore : ∀ rest, blankLines (some previous) ((c :: read).reverse ++ rest)
          = met + 1 + next.blanksAhead rest := by
        intro rest
        rw [List.reverse_cons, List.append_assoc, List.singleton_append, hmet, hcount]
        omega
      rw [spans, lines, hstep]
      dsimp only
      rw [ih hmore, List.replicate_succ', List.append_assoc]
      rfl
    | record fields hstep hended hcount =>
      have hgap : blankLines (some previous) (c :: read).reverse = met := by
        rw [List.reverse_cons, hmet, hcount, Nat.add_zero]
      have hlast : (c :: read).reverse.getLast? = some c := by simp
      rw [spans, lines, hstep]
      dsimp only
      rw [rowsOfSpans, hgap, hlast, ih (blankLines_of_ended hended)]
      rfl

/-- The first record is the first line that is not blank, and the lines behind it are the records and
gaps behind it. -/
theorem spans_cases (s : Scanner) (read text : List Char) :
    ((s.spans read text).1 = [] ∧ (s.lines text).dropWhile Line.isBlank = []) ∨
      ∃ header spans lines, (s.spans read text).1 = header :: spans ∧
        (s.lines text).dropWhile Line.isBlank = .record header.fields :: lines ∧
        rowsOfSpans header.text.getLast? (s.spans read text).2 spans = lines.map Line.row := by
  induction text generalizing s read with
  | nil =>
    rcases s.last?_cases with hlast | ⟨fields, hlast⟩
    · rw [spans, lines, hlast]
      exact .inl ⟨rfl, rfl⟩
    · rw [spans, lines, hlast]
      exact .inr ⟨_, [], [], rfl, rfl, rowsOfSpans_nil_nil _⟩
  | cons c text ih =>
    cases s.counted c with
    | silent next hstep hcount =>
      rw [spans, lines, hstep]
      exact ih next (c :: read)
    | blank next hstep hcount =>
      rw [spans, lines, hstep]
      exact ih next (c :: read)
    | record fields hstep hended hcount =>
      have hlast : (c :: read).reverse.getLast? = some c := by simp
      rw [spans, lines, hstep]
      refine .inr ⟨_, _, _, rfl, rfl, ?_⟩
      dsimp only
      rw [hlast, rowsOfSpans_spans (blankLines_of_ended hended)]
      rfl

end Scanner

/-- Counting the blank lines in the gaps gives the same columns and rows as meeting them. -/
theorem decodeByGaps_eq_decode (text : String) : decodeByGaps text = decode text := by
  unfold decodeByGaps decode lines
  rcases (Scanner.atLine false).spans_cases [] (dropMark text.toList) with
    ⟨hspans, hlines⟩ | ⟨header, spans, rest, hspans, hlines, hrows⟩
  · rw [hlines]
    cases hall : (Scanner.atLine false).spans [] (dropMark text.toList) with
    | mk spans behind =>
      rw [hall] at hspans
      rw [show spans = [] from hspans]
  · rw [hlines]
    cases hall : (Scanner.atLine false).spans [] (dropMark text.toList) with
    | mk all behind =>
      rw [hall] at hspans hrows
      rw [show all = header :: spans from hspans]
      dsimp only at hrows ⊢
      rw [hrows]

end CsvQuery.Csv

/-
  CsvQuery.Proofs.Csv.LineEnds — how the line ends are written does not matter.

  Outside quotes every line feed of a text may be written as a line feed, as a pair or as a lone carriage
  return, one of them so and the next one otherwise.  Only a lone carriage return in front of a line end
  that is written as a line feed would make a pair with it, and there would be one line end less.  At each
  of these line ends the scanner puts the same line out and comes to stand before the next one; so it is
  followed over both texts at once, in step.

  Main results:
    • `Scanner.step_kept`, `Scanner.step_terminator` — the step, within a line and at its end
    • `Scanner.lines_respelled` — the run: both texts have the same lines
    • `decode_respelled` — both texts have the same columns and rows
-/
import CsvQuery.Proofs.Csv.Cut

namespace CsvQuery.Csv

/-! ## §1. Writing line ends in other ways -/

/-- Where the next character of a text stands. -/
inductive Place where
  /-- At the start of a field, where a quote opens a quoted part. -/
  | fieldStart
  /-- In text outside quotes. -/
  | plain
  /-- In text between quotes. -/
  | quoted
  /-- Behind a quote that closes the quoted part, unless the next character is a quote as well. -/
  | closing
  deriving DecidableEq

namespace Place

/-- The place behind a character that stands outside quotes and opens none. -/
def outside (c : Char) : Place := if endsField c then fieldStart else plain

/-- The place behind a character. -/
def after : Place → Char → Place
  | quoted, c => if c = '"' then closing else quoted
  | closing, c => if c = '"' then quoted else outside c
  | fieldStart, c => if c = '"' then quoted else outside c
  | plain, c => outside c

end Place

/-- The first text has only line feeds for its line ends outside quotes, and the second one is the same text
with each of them written in one of three ways.  A lone carriage return does not stand before a line end
that is written as a line feed. -/
inductive Respelled : Place → List Char → List Char → Prop where
  | done (place : Place) : Respelled place [] []
  /-- Quoted text, and all that is no line end, is left as it is. -/
  | kept {place : Place} {c : Char} {text text' : List Char}
      (quoted : place = .quoted ∨ isTerminator c = false) (rest : Respelled (place.after c) text text') :
      Respelled place (c :: text) (c :: text')
  | feed {place : Place} {text text' : List Char} (outside : place ≠ .quoted)
      (rest : Respelled .fieldStart text text') : Respelled place ('\n' :: text) ('\n' :: text')
  | pair {place : Place} {text text' : List Char} (outside : place ≠ .quoted)
      (rest : Respelled .fieldStart text text') : Respelled place ('\n' :: text) ('\r' :: '\n' :: text')
  | lone {place : Place} {text text' : List Char} (outside : place ≠ .quoted)
      (apart : text'.head? ≠ some '\n') (rest : Respelled .fieldStart text text') :
      Respelled place ('\n' :: text) ('\r' :: text')

/-! ## §2. One character -/

namespace Scanner

variable {s : Scanner} {place : Place} {c : Char}

/-- The scanner stands at the place, and no line feed can make a pair with what is behind it. -/
def StandsAt (s : Scanner) : Place → Prop
  | .fieldStart => s.mode = .lineStart false ∨ s.mode = .fieldStart
  | .plain => s.mode = .plain
  | .quoted => s.mode = .quoted
  | .closing => s.mode = .closing

/-- Outside quotes, what opens none and ends no line goes on with the line. -/
theorem stepUnquoted_kept (hc : isTerminator c = false) :
    ∃ next, s.stepUnquoted c = (none, next) ∧ next.StandsAt (.outside c) := by
  have hne := isTerminator_eq_false_iff.mp hc
  unfold stepUnquoted Place.outside endsField
  rw [hc, Bool.or_false]
  by_cases hcomma : c = ','
  · rw [if_pos hcomma, decide_eq_true hcomma]
    exact ⟨_, rfl, .inr rfl⟩
  · rw [if_neg hcomma, if_neg hne.1, if_neg hne.2, decide_eq_false hcomma]
    exact ⟨_, rfl, rfl⟩

/-- Quoted text, and all that is no line end, puts no line out. -/
theorem step_kept (hs : s.StandsAt place) (hc : place = .quoted ∨ isTerminator c = false) :
    ∃ next, s.step c = (none, next) ∧ next.StandsAt (place.after c) := by
  obtain ⟨mode, field, fields⟩ := s
  cases place with
  | quoted =>
    cases (hs : mode = .quoted)
    by_cases hquote : c = '"'
    · exact ⟨_, if_pos hquote, by rw [Place.after, if_pos hquote]; rfl⟩
    · exact ⟨_, if_neg hquote, by rw [Place.after, if_neg hquote]; rfl⟩
  | plain =>
    cases (hs : mode = .plain)
    exact stepUnquoted_kept (hc.resolve_left nofun)
  | closing =>
    cases (hs : mode = .closing)
    by_cases hquote : c = '"'
    · exact ⟨_, if_pos hquote, by rw [Place.after, if_pos hquote]; rfl⟩
    · obtain ⟨next, hstep, hnext⟩ := stepUnquoted_kept (s := ⟨.closing, field, fields⟩)
        (hc.resolve_left nofun)
      exact ⟨next, (if_neg hquote).trans hstep, by rwa [Place.after, if_neg hquote]⟩
  | fieldStart =>
    have hunquoted := stepUnquoted_kept (s := ⟨mode, field, fields⟩) (hc.resolve_left nofun)
    by_cases hquote : c = '"'
    · rw [Place.after, if_pos hquote]
      rcases (hs : mode = .lineStart false ∨ mode = .fieldStart) with rfl | rfl
      · exact ⟨_, if_pos hquote, rfl⟩
      · exact ⟨_, if_pos hquote, rfl⟩
    · obtain ⟨next, hstep, hnext⟩ := hunquoted
      refine ⟨next, ?_, by rwa [Place.after, if_neg hquote]⟩
      rcases (hs : mode = .lineStart false ∨ mode = .fieldStart) with rfl | rfl
      · exact (if_neg hquote).trans ((if_neg fun hpair => nomatch hpair.1).trans hstep)
      · exact (if_neg hquote).trans hstep

/-- Outside quotes a line end puts the line out as it stands. -/
theorem step_terminator (hs : s.StandsAt place) (hplace : place ≠ .quoted) (hc : isTerminator c = true) :
    s.step c = (some s.line, atLine (decide (c = '\r'))) := by
  have hquote : c ≠ '"' := fun hquote => absurd hc (by rw [hquote]; decide)
  rw [← stepUnquoted_of_isTerminator hc]
  obtain ⟨mode, field, fields⟩ := s
  cases place with
  | quoted => exact absurd rfl hplace
  | plain =>
    cases (hs : mode = .plain)
    rfl
  | closing =>
    cases (hs : mode = .closing)
    exact if_neg hquote
  | fieldStart =>
    rcases (hs : mode = .lineStart false ∨ mode = .fieldStart) with rfl | rfl
    · exact (if_neg hquote).trans (if_neg fun hpair => nomatch hpair.1)
    · exact if_neg hquote

/-! ## §3. Both texts -/

/-- Both texts have the same lines, wherever the scanner stands. -/
theorem lines_respelled {text text' : List Char} (h : Respelled place text text')
    (hs : s.StandsAt place) : s.lines text' = s.lines text := by
  have hstart : (atLine false).StandsAt .fieldStart := .inl rfl
  induction h generalizing s with
  | done place => rfl
  | kept hquoted rest ih =>
    obtain ⟨next, hstep, hnext⟩ := step_kept hs hquoted
    rw [lines_of_step_none hstep, lines_of_step_none hstep, ih hnext]
  | feed houtside rest ih =>
    have hfeed := step_terminator (c := '\n') hs houtside rfl
    rw [lines_of_step_some hfeed, lines_of_step_some hfeed]
    exact congrArg _ (ih hstart)
  | @pair place text text' houtside rest ih =>
    -- the carriage return puts the line out, and the line feed is passed over
    have hreturn := step_terminator (c := '\r') hs houtside rfl
    have hfeed := step_terminator (c := '\n') hs houtside rfl
    rw [lines_of_step_some hreturn, lines_of_step_some hfeed]
    exact congrArg _ ((lines_afterTerminator (c := '\r') rfl ('\n' :: text')).trans (ih hstart))
  | @lone place text text' houtside hapart rest ih =>
    -- what follows is no line feed, so it is read as if no carriage return stood before it
    have hreturn := step_terminator (c := '\r') hs houtside rfl
    have hfeed := step_terminator (c := '\n') hs houtside rfl
    have hafter : afterTerminator ('\r' :: text') = text' := by
      rw [afterTerminator]
      rintro rest - rfl
      exact hapart rfl
    have hnext := lines_afterTerminator (c := '\r') rfl text'
    rw [hafter] at hnext
    rw [lines_of_step_some hreturn, lines_of_step_some hfeed]
    exact congrArg _ (hnext.trans (ih hstart))

end Scanner

/-- Both texts have the same columns and the same rows, blank ones included.  A byte order mark stands
before the text and belongs to no field. -/
theorem decode_respelled {text text' : String}
    (h : Respelled .fieldStart (dropMark text.toList) (dropMark text'.toList)) :
    decode text' = decode text ∧ decodeByGaps text' = decodeByGaps text := by
  have hlines : lines (dropMark text'.toList) = lines (dropMark text.toList) :=
    Scanner.lines_respelled h (.inl rfl)
  rw [decodeByGaps_eq_decode, decodeByGaps_eq_decode, and_self]
  unfold decode
  rw [hlines]

/-- All three ways in one text, at its start, between blank lines and at its end, with a line feed in quotes
and a byte order mark. -/
theorem decode_respelled_mixed :
    let text := "\uFEFF\n\"k\n\"\n\n1\n"
    let text' := "\uFEFF\r\"k\n\"\r\r\n1\r"
    Respelled .fieldStart (dropMark text.toList) (dropMark text'.toList) ∧
      decode text = (["k\n"], [[.absent], [.int 1]]) ∧
      decode text' = decode text ∧ decodeByGaps text' = decodeByGaps text := by
  intro text text'
  have htext : dropMark text.toList = ['\n', '"', 'k', '\n', '"', '\n', '\n', '1', '\n'] := by
    decide +kernel
  have htext' : dropMark text'.toList
      = ['\r', '"', 'k', '\n', '"', '\r', '\r', '\n', '1', '\r'] := by
    decide +kernel
  have h : Respelled .fieldStart (dropMark text.toList) (dropMark text'.toList) := by
    rw [htext, htext']
    exact .lone (by decide) (by decide) <| .kept (by decide) <| .kept (by decide) <|
      .kept (by decide) <| .kept (by decide) <| .lone (by decide) (by decide) <|
      .pair (by decide) <| .kept (by decide) <| .lone (by decide) (by decide) <| .done _
  exact ⟨h, by decide +kernel, decode_respelled h⟩

-- A lone carriage return before a line feed is one line end with it, so a blank line is lost.
example : decode "k\n\n1\n" = (["k"], [[.absent], [.int 1]]) ∧
    decode "k\r\n1\n" = (["k"], [[.int 1]]) := by
  decide +kernel

end CsvQuery.Csv

/-
  CsvQuery.Proofs.Query.Limit — the rows that a limit keeps.

  The token of a limit opens with an integer: a sign, if one stands there, and all the digits behind it,
  whatever comes after them.  Every token opens with one integer and no other, which is zero where no digit
  stands in that place.  The limit is this integer or, if it has more than 64 bits, the end of their range
  on its side, and so many rows are kept from the top as the limit says and the table has.

  Main results:
    • `opensWith_iff` — the integer that a token opens with
    • `take_of_token` — the limit of a token, and what a command with this limit leaves of a table
-/
import CsvQuery.Proofs.Number.Spelling
import CsvQuery.Proofs.Query.Execute
import CsvQuery.Proofs.Query.Grammar

namespace CsvQuery

/-! ## §1. The integer of a token -/

/-- The text opens with the integer: a sign, if one stands there, then all the digits that follow it. -/
inductive OpensWith : List Char → Int → Prop where
  | digits {negative : Bool} {sign digits rest : List Char} (isSign : IsSign negative sign)
      (unsigned : sign = [] → Unsigned (digits ++ rest)) (decimal : ∀ c ∈ digits, c.isDigit = true)
      (ends : NoDigitAhead rest) :
      OpensWith (sign ++ (digits ++ rest)) (signed negative (digitsValue digits))

theorem noDigitAhead_dropWhile (text : List Char) : NoDigitAhead (text.dropWhile Char.isDigit) := by
  intro c hc
  have hnot := List.head?_dropWhile_not Char.isDigit text
  rw [hc] at hnot
  simpa using hnot

/-- A text of which no sign is taken off begins with none. -/
theorem unsigned_of_splitSign {text : List Char} (h : (splitSign text).2 = text) : Unsigned text := by
  cases text with
  | nil => exact ⟨Option.some_ne_none _ ∘ Eq.symm, Option.some_ne_none _ ∘ Eq.symm⟩
  | cons c rest =>
    constructor
    · intro hplus
      rw [Option.some.inj hplus] at h
      exact absurd h.symm (List.cons_ne_self _ _)
    · intro hminus
      rw [Option.some.inj hminus] at h
      exact absurd h.symm (List.cons_ne_self _ _)

/-- A token opens with one integer, the one that is read. -/
theorem opensWith_iff {token : String} {n : Int} :
    OpensWith token.toList n ↔ n = leadingValue token := by
  unfold leadingValue
  constructor
  · intro h
    generalize token.toList = text at h
    cases h with
    | digits hsign hunsigned hdigits hends =>
      rw [splitSign_of_isSign hsign hunsigned]
      show _ = signed _ (digitsValue _)
      rw [(takeWhile_isDigit_append hdigits hends).1]
  · intro h
    obtain ⟨sign, hsign, htext⟩ := exists_isSign token.toList
    cases hsplit : splitSign token.toList with
    | mk negative behind =>
      rw [hsplit] at h hsign htext
      dsimp only at h hsign htext
      have hparts : behind.takeWhile Char.isDigit ++ behind.dropWhile Char.isDigit = behind :=
        List.takeWhile_append_dropWhile
      have hunsigned : sign = [] →
          Unsigned (behind.takeWhile Char.isDigit ++ behind.dropWhile Char.isDigit) := by
        intro hnone
        rw [hnone, List.nil_append] at htext
        rw [hparts]
        apply unsigned_of_splitSign
        rw [← htext, hsplit]
        exact htext.symm
      have hopens := OpensWith.digits hsign hunsigned (forall_mem_takeWhile behind)
        (noDigitAhead_dropWhile behind)
      rw [hparts, ← htext] at hopens
      rw [h]
      exact hopens

/-! ## §2. The limit of a token -/

/-- The range that integers are cut to is that of the words of 64 bits. -/
theorem clamp64_eq (n : Int) :
    clamp64 n = max Int64.minValue.toInt (min n Int64.maxValue.toInt) := by
  have hmin : Int64.minValue.toInt = -9223372036854775808 := rfl
  have hmax : Int64.maxValue.toInt = 9223372036854775807 := rfl
  unfold clamp64
  rw [hmin, hmax]
  omega

/-- A table is left with as many rows from the top as the limit says, if it has as many. -/
theorem length_take_rows (rows : List Row) (limit : Int64) :
    ((rows.take limit.toInt.toNat).length : Int) = min (max limit.toInt 0) rows.length := by
  rw [List.length_take]
  omega

/-- The limit of a token is the integer that it opens with, or the end of the range of 64 bits that the
integer is past.  A command with this token changes the rows of the table only and never fails: so many
rows stay, from the top, as the limit says and the table has. -/
theorem take_of_token {σ : Type} (token : String) :
    ∃ n : Int, (∀ m, OpensWith token.toList m ↔ m = n) ∧
      (leadingInteger token).toInt = max Int64.minValue.toInt (min n Int64.maxValue.toInt) ∧
      ∀ (source : Source σ) (strategy : JoinStrategy) (keyword : String) (rest : List String)
        (table : IndexedTable) (state : σ), Keyword.take.IsSpelled keyword →
        ∃ command kept, Command.ofTokens? (keyword :: token :: rest) = (some command, rest) ∧
          (command.execute source strategy).outcome (table, state)
            = (.ok (), ({ table with rows := kept }, state)) ∧
          kept <+: table.rows ∧
          (kept.length : Int) = min (max (leadingInteger token).toInt 0) table.rows.length := by
  refine ⟨leadingValue token, fun m => opensWith_iff, ?_, ?_⟩
  · rw [toInt_leadingInteger, clamp64_eq]
  · intro source strategy keyword rest table state hkeyword
    have hphrase : Command.IsPhrase [keyword, token] (.take (leadingInteger token)) :=
      .take hkeyword (toInt_leadingInteger token)
    exact ⟨_, _, hphrase.ofTokens?_append rest, Command.outcome_execute source strategy _ table state,
      List.take_prefix _ _, length_take_rows table.rows _⟩

/-- One digit past the range does not bring a limit back into it, and a short table is kept whole. -/
theorem take_of_token_past_range :
    Keyword.take.IsSpelled "TaKe" ∧
    OpensWith "-9223372036854775809é7".toList (-9223372036854775809) ∧
    leadingInteger "-9223372036854775809é7" = Int64.minValue ∧
    ∃ command kept,
      Command.ofTokens? ["TaKe", "2rows"] = (some command, []) ∧
      (command.execute (.fixed fun _ => .ok "") .hash).outcome
          (⟨[], ∅, [[.int 1], [.float .nan], [], [.int 4]]⟩, ())
        = (.ok (), (⟨[], ∅, kept⟩, ())) ∧
      kept.length = 2 := by
  have hkeyword : Keyword.take.IsSpelled "TaKe" := rfl
  have hopens : OpensWith "-9223372036854775809é7".toList (-9223372036854775809) :=
    opensWith_iff.mpr (by decide +kernel)
  obtain ⟨n, hn, hlimit, -⟩ := take_of_token (σ := Unit) "-9223372036854775809é7"
  rw [← (hn _).mp hopens] at hlimit
  obtain ⟨-, -, -, htake⟩ := take_of_token (σ := Unit) "2rows"
  obtain ⟨command, kept, hread, hrun, -, hlength⟩ := htake (.fixed fun _ => .ok "") .hash "TaKe" []
    ⟨[], ∅, [[.int 1], [.float .nan], [], [.int 4]]⟩ () hkeyword
  refine ⟨hkeyword, hopens, Int64.toInt_inj.mp hlimit, command, kept, hread, hrun, ?_⟩
  have hvalue : (leadingInteger "2rows").toInt = 2 := by decide +kernel
  rw [hvalue] at hlength
  exact Int.ofNat_inj.mp hlength

end CsvQuery

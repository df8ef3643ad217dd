/-
  CsvQuery.Proofs.Query.Written — commands that are written and read again.

  A command is written as a phrase of its own, its tokens divided by spaces.  Where each argument is one
  token, the spaces stand between the tokens of the phrase and nowhere else, so commands that are joined by
  spaces have the tokens of their phrases, one phrase after another, and that is a query.  An argument that
  is no token is never read, and a selection without columns is never read from what it is written as.

  Main results:
    • `tokens_intercalate` — the tokens of joined texts are those of the texts
    • `leadingValue_decimalText` — a limit is read as it is written
    • `isWritable_of_isPhrase` — what can be read can be written, but for a selection without columns
    • `display_read_back` — the commands that are read as they were written
-/
import CsvQuery.Proofs.Number.Digits
import CsvQuery.Proofs.Query.Grammar

namespace CsvQuery

/-! ## §1. Joined texts -/

theorem words_intercalate (texts : List (List Char)) :
    words ([' '].intercalate texts) = texts.flatMap words := by
  induction texts with
  | nil => rfl
  | cons text texts ih =>
    by_cases hlast : texts = []
    · simp [hlast]
    · rw [List.intercalate_cons_of_ne_nil hlast, List.flatMap_cons, List.append_assoc, ← ih]
      exact words_append_blank text (by decide) _

/-- The tokens of texts that are joined by spaces are the tokens of the texts. -/
theorem tokens_intercalate (texts : List String) :
    tokens (" ".intercalate texts) = texts.flatMap tokens := by
  unfold tokens
  have hspace : " ".toList = [' '] := rfl
  rw [String.toList_intercalate, hspace, words_intercalate, List.flatMap_map, List.map_flatMap]

/-- A property of the separator holds all over a joined text if it holds all over the pieces. -/
theorem forall_mem_intercalate {α : Type} {p : α → Prop} {separator : List α}
    (hseparator : ∀ a ∈ separator, p a) (pieces : List (List α)) :
    (∀ a ∈ separator.intercalate pieces, p a) ↔ ∀ piece ∈ pieces, ∀ a ∈ piece, p a := by
  induction pieces with
  | nil => simp
  | cons piece pieces ih =>
    by_cases hlast : pieces = []
    · simp [hlast]
    · rw [List.intercalate_cons_of_ne_nil hlast, List.forall_mem_append, List.forall_mem_append, ih,
        List.forall_mem_cons, and_iff_left hseparator]

/-! ## §2. Tokens -/

/-- The text is one token: at least one character, and none that is blank. -/
def IsToken (text : String) : Prop := IsWord text.toList

theorem tokens_of_isToken {text : String} (h : IsToken text) : tokens text = [text] := by
  unfold tokens
  rw [words_of_isWord h]
  simp

/-- All that a line is cut into are tokens. -/
theorem isToken_of_mem_tokens {line token : String} (h : token ∈ tokens line) : IsToken token := by
  unfold tokens at h
  obtain ⟨word, hword, htoken⟩ := List.mem_map.mp h
  show IsWord token.toList
  rw [← htoken, String.toList_ofList]
  exact isWord_of_mem_words hword

instance (text : String) : Decidable (IsToken text) :=
  decidable_of_iff (text.toList ≠ [] ∧ text.toList.all (fun c => !isBlank c) = true)
    ⟨fun h => ⟨h.1, by simpa using h.2⟩, fun h => ⟨h.ne_nil, by simpa using h.solid⟩⟩

/-- Texts that are one token each are their own tokens. -/
theorem flatMap_tokens {texts : List String} (h : ∀ text ∈ texts, IsToken text) :
    texts.flatMap tokens = texts := by
  induction texts with
  | nil => rfl
  | cons text texts ih =>
    obtain ⟨htext, htexts⟩ := List.forall_mem_cons.mp h
    rw [List.flatMap_cons, tokens_of_isToken htext, ih htexts]
    rfl

theorem isToken_name (keyword : Keyword) : IsToken keyword.name := by cases keyword <;> decide

/-! ## §3. Columns -/

/-- The columns can be written as one token: names without blanks and commas, of which the last is not
empty. -/
structure IsColumnList (columns : List String) : Prop where
  nonempty : columns ≠ []
  solid : ∀ name ∈ columns, ∀ c ∈ name.toList, isBlank c = false
  comma_free : ∀ name ∈ columns, ',' ∉ name.toList
  last_ne : columns.getLast? ≠ some ""

instance (columns : List String) : Decidable (IsColumnList columns) :=
  decidable_of_iff (columns ≠ [] ∧ columns.all (fun name => name.toList.all fun c => !isBlank c) = true ∧
      columns.all (fun name => !name.toList.contains ',') = true ∧ columns.getLast? ≠ some "")
    ⟨fun h => ⟨h.1, by simpa using h.2.1, by simpa using h.2.2.1, h.2.2.2⟩,
      fun h => ⟨h.nonempty, by simpa using h.solid, by simpa using h.comma_free, h.last_ne⟩⟩

/-- Commas bring no blank into a text and take none out of it. -/
theorem solid_intercalate_iff (names : List String) :
    (∀ c ∈ (",".intercalate names).toList, isBlank c = false) ↔
      ∀ name ∈ names, ∀ c ∈ name.toList, isBlank c = false := by
  have hcomma : ",".toList = [','] := rfl
  have hsolid : ∀ c ∈ [','], isBlank c = false := by simp; decide
  rw [String.toList_intercalate, hcomma, forall_mem_intercalate hsolid]
  simp

/-- Columns that can be written are read back from their list. -/
theorem IsColumnList.isNameList {columns : List String} (h : IsColumnList columns) :
    IsNameList (",".intercalate columns) columns where
  written := ⟨0, by simpa using h.nonempty, by simp⟩
  comma_free := h.comma_free
  last_ne := h.last_ne

/-- A list of columns that can be written is one token. -/
theorem IsColumnList.isToken {columns : List String} (h : IsColumnList columns) :
    IsToken (",".intercalate columns) := by
  constructor
  · intro hempty
    have hcolumns := commaPieces_intercalate h.nonempty h.comma_free
    -- the empty text has one piece, the empty one
    rw [String.toList_eq_nil_iff.mp hempty] at hcolumns
    apply h.last_ne
    rw [← hcolumns]
    decide
  · exact (solid_intercalate_iff columns).mpr h.solid

/-- The names that a token writes out can be written as one token, if there are any. -/
theorem isColumnList_of_isNameList {token : String} {names : List String} (htoken : IsToken token)
    (h : IsNameList token names) (hnames : names ≠ []) : IsColumnList names := by
  obtain ⟨count, hne, hwritten⟩ := h.written
  have hsolid : ∀ c ∈ (",".intercalate (names ++ List.replicate count "")).toList,
      isBlank c = false := by
    rw [hwritten]
    exact htoken.solid
  rw [solid_intercalate_iff] at hsolid
  exact ⟨hnames, fun name hname => hsolid name (List.mem_append_left _ hname), h.comma_free, h.last_ne⟩

/-! ## §4. Limits -/

theorem isBlank_of_isDigit {c : Char} (h : c.isDigit = true) : isBlank c = false := by
  have hzero : '0'.toNat = 48 := rfl
  have hnine : '9'.toNat = 57 := rfl
  have hdigit := Char.isDigit_iff_toNat.mp h
  exact isBlank_eq_false (by omega) (by omega)

/-- The decimal text of an integer is a sign and its digits. -/
theorem exists_decimalText (i : Int) : ∃ negative n, i = signed negative n ∧
    decimalText i = withSign negative (Nat.toDigits 10 n) := by
  cases i with
  | ofNat n => exact ⟨false, n, rfl, rfl⟩
  | negSucc n => exact ⟨true, n + 1, rfl, rfl⟩

/-- The decimal text of an integer is read as the integer. -/
theorem leadingValue_decimalText (i : Int) : leadingValue (String.ofList (decimalText i)) = i := by
  obtain ⟨negative, n, hi, htext⟩ := exists_decimalText i
  have hfirst := exists_isDigit_cons Nat.toDigits_ne_nil (isDigit_toDigits n)
  unfold leadingValue
  rw [htext, String.toList_ofList, splitSign_withSign negative hfirst, hi]
  show signed negative (digitsValue ((Nat.toDigits 10 n).takeWhile Char.isDigit)) = _
  rw [List.takeWhile_eq_self_iff.mpr (isDigit_toDigits n), digitsValue_toDigits]

theorem isToken_decimalText (i : Int) : IsToken (String.ofList (decimalText i)) := by
  obtain ⟨negative, n, -, htext⟩ := exists_decimalText i
  have hdigits : ∀ c ∈ Nat.toDigits 10 n, isBlank c = false :=
    fun c hc => isBlank_of_isDigit (isDigit_toDigits n c hc)
  show IsWord (String.ofList (decimalText i)).toList
  rw [String.toList_ofList, htext]
  cases negative with
  | false => exact ⟨Nat.toDigits_ne_nil, hdigits⟩
  | true => exact ⟨List.cons_ne_nil _ _, List.forall_mem_cons.mpr ⟨by decide, hdigits⟩⟩

theorem clamp64_toInt (i : Int64) : clamp64 i.toInt = i.toInt := by
  have hlow := i.minValue_le_toInt
  have hhigh := i.toInt_le
  unfold clamp64
  rw [if_neg (by omega), if_neg (by omega)]

/-! ## §5. One command -/

namespace Command

/-- Every argument of the command can be written as one token. -/
def IsWritable : Command → Prop
  | load path => IsToken path
  | select columns => IsColumnList columns
  | take _ => True
  | orderBy column => IsToken column
  | join path column => IsToken path ∧ IsToken column
  | countBy column => IsToken column

instance : DecidablePred IsWritable
  | load path => inferInstanceAs (Decidable (IsToken path))
  | select columns => inferInstanceAs (Decidable (IsColumnList columns))
  | take _ => inferInstanceAs (Decidable True)
  | orderBy column => inferInstanceAs (Decidable (IsToken column))
  | join path column => inferInstanceAs (Decidable (IsToken path ∧ IsToken column))
  | countBy column => inferInstanceAs (Decidable (IsToken column))

/-- The texts that a command is written with: its keyword, then its arguments. -/
def phrase : Command → List String
  | select columns => [Keyword.select.name, ",".intercalate columns]
  | command => command.keyword.name :: command.arguments

/-- A command is written as the tokens of its phrase, with spaces between them. -/
theorem display_eq (command : Command) : command.display = " ".intercalate command.phrase := by
  cases command <;>
    simp [display, phrase, separator, arguments, keyword, String.intercalate_cons_of_ne_nil,
      String.append_assoc]

/-- The tokens of a written command begin with its keyword. -/
theorem tokens_display (command : Command) :
    tokens command.display = command.keyword.name :: command.phrase.tail.flatMap tokens := by
  have hphrase : command.phrase = command.keyword.name :: command.phrase.tail := by
    cases command <;> rfl
  rw [display_eq, tokens_intercalate, hphrase, List.flatMap_cons, tokens_of_isToken (isToken_name _)]
  rfl

/-- The tokens of a command that can be written are the texts it is written with. -/
theorem IsWritable.tokens_display {command : Command} (h : command.IsWritable) :
    tokens command.display = command.phrase := by
  rw [display_eq, tokens_intercalate]
  apply flatMap_tokens
  cases command with
  | load path => simp [phrase, arguments, isToken_name, show IsToken path from h]
  | select columns => simp [phrase, isToken_name, IsColumnList.isToken h]
  | take limit => simp [phrase, arguments, isToken_name, isToken_decimalText]
  | orderBy column => simp [phrase, arguments, isToken_name, show IsToken column from h]
  | join path column => simp [phrase, arguments, isToken_name, h.1, h.2]
  | countBy column => simp [phrase, arguments, isToken_name, show IsToken column from h]

theorem isSpelled_name (keyword : Keyword) : keyword.IsSpelled keyword.name := by
  cases keyword <;> rfl

/-- These texts are a phrase of the command. -/
theorem IsWritable.isPhrase {command : Command} (h : command.IsWritable) :
    command.IsPhrase command.phrase := by
  cases command with
  | load path => exact .load (isSpelled_name _) path
  | select columns => exact .select (isSpelled_name _) (IsColumnList.isNameList h)
  | take limit =>
    refine .take (isSpelled_name _) ?_
    rw [leadingValue_decimalText, clamp64_toInt]
  | orderBy column => exact .orderBy (isSpelled_name _) column
  | join path column => exact .join (isSpelled_name _) path column
  | countBy column => exact .countBy (isSpelled_name _) column

/-- What can be read can be written, but for a selection without columns. -/
theorem isWritable_of_isPhrase {texts : List String} {command : Command}
    (h : command.IsPhrase texts) (htexts : ∀ text ∈ texts, IsToken text) :
    command.IsWritable ∨ command = .select [] := by
  cases h with
  | load _ path => exact .inl (htexts path (by simp))
  | @select _ columns names _ hcolumns =>
    by_cases hnames : names = []
    · exact .inr (by rw [hnames])
    · exact .inl (isColumnList_of_isNameList (htexts columns (by simp)) hcolumns hnames)
  | take _ _ => exact .inl trivial
  | orderBy _ column => exact .inl (htexts column (by simp))
  | join _ path column => exact .inl ⟨htexts path (by simp), htexts column (by simp)⟩
  | countBy _ column => exact .inl (htexts column (by simp))

end Command

/-! ## §6. Queries -/

/-- The phrases of commands that can be written are a query of them. -/
theorem isQuery_phrases {commands : List Command} (h : ∀ command ∈ commands, command.IsWritable) :
    IsQuery (commands.flatMap Command.phrase) commands := by
  induction commands with
  | nil => exact .nil
  | cons command commands ih =>
    obtain ⟨hcommand, hcommands⟩ := List.forall_mem_cons.mp h
    exact .cons hcommand.isPhrase (ih hcommands)

/-- The first command of a query is read at its front, and the others make the query behind it. -/
theorem IsQuery.exists_rest {found : List String} {command : Command} {commands : List Command}
    (h : IsQuery found (command :: commands)) :
    ∃ rest, Command.ofTokens? found = (some command, rest) ∧ IsQuery rest commands := by
  cases h with
  | @cons phrase rest _ _ hphrase hrest => exact ⟨rest, hphrase.ofTokens?_append rest, hrest⟩

/-- Commands that are read can be written, but for a selection of no columns. -/
theorem IsQuery.isWritable {found : List String} {commands : List Command} (h : IsQuery found commands)
    (hfound : ∀ token ∈ found, IsToken token) :
    ∀ command ∈ commands, command.IsWritable ∨ command = .select [] := by
  induction h with
  | nil => simp
  | @cons phrase rest command commands hphrase hrest ih =>
    obtain ⟨hfirst, hlater⟩ := List.forall_mem_append.mp hfound
    exact List.forall_mem_cons.mpr ⟨Command.isWritable_of_isPhrase hphrase hfirst, ih hlater⟩

/-- A selection without columns is not read from what it is written as: the next keyword, if there is one,
would be taken for its columns. -/
theorem not_isQuery_select_nil (commands : List Command) :
    ¬IsQuery (((Command.select []) :: commands).flatMap fun command => tokens command.display)
      (.select [] :: commands) := by
  intro h
  obtain ⟨rest, hread, -⟩ := h.exists_rest
  have hselect : tokens (Command.select []).display = [Keyword.select.name] := rfl
  have hkeyword : Keyword.ofToken? Keyword.select.name = some .select :=
    Keyword.ofToken?_eq_some_iff.mpr (Command.isSpelled_name .select)
  rw [List.flatMap_cons, hselect] at hread
  cases commands with
  | nil => simp [Command.ofTokens?, hkeyword] at hread
  | cons next commands =>
    have hname : columnNames next.keyword.name ≠ [] := by cases next.keyword <;> decide
    rw [List.flatMap_cons, Command.tokens_display] at hread
    simp [Command.ofTokens?, hkeyword, hname] at hread

/-- If written commands are a query for the same commands, all of them can be written. -/
theorem isWritable_of_isQuery_display {commands : List Command}
    (h : IsQuery (commands.flatMap fun command => tokens command.display) commands)
    (hcommands : ∀ command ∈ commands, command.IsWritable ∨ command = .select []) :
    ∀ command ∈ commands, command.IsWritable := by
  induction commands with
  | nil => simp
  | cons command commands ih =>
    obtain ⟨hcommand, hlater⟩ := List.forall_mem_cons.mp hcommands
    rcases hcommand with hwritable | hselect
    · -- the phrase of the first command is taken off the front, and the others are left
      obtain ⟨rest, hread, hrest⟩ := h.exists_rest
      rw [List.flatMap_cons, hwritable.tokens_display, hwritable.isPhrase.ofTokens?_append] at hread
      rw [← (Prod.mk.inj hread).2] at hrest
      exact List.forall_mem_cons.mpr ⟨hwritable, ih hrest hlater⟩
    · rw [hselect] at h
      exact absurd h (not_isQuery_select_nil commands)

/-- Every command that a line is parsed to can be written, but for a selection of no columns. -/
theorem isWritable_of_mem_parse {line : String} {command : Command} (h : command ∈ parse line) :
    command.IsWritable ∨ command = .select [] := by
  by_cases hquery : ∃ commands, IsQuery (tokens line) commands
  · obtain ⟨commands, hcommands⟩ := hquery
    rw [parse_of_isQuery hcommands] at h
    exact hcommands.isWritable (fun token htoken => isToken_of_mem_tokens htoken) command h
  · rw [parse_of_not_isQuery (not_exists.mp hquery)] at h
    simp at h

section ReadBack

variable {commands : List Command}

theorem tokens_intercalate_display (commands : List Command) :
    tokens (" ".intercalate (commands.map Command.display))
      = commands.flatMap fun command => tokens command.display := by
  rw [tokens_intercalate, List.flatMap_map]

/-- Commands that can be written are read back from what is written. -/
theorem parse_display (h : ∀ command ∈ commands, command.IsWritable) :
    parse (" ".intercalate (commands.map Command.display)) = commands := by
  have hphrases : (commands.flatMap fun command => tokens command.display)
      = commands.flatMap Command.phrase :=
    List.flatMap_congr fun command hcommand => (h command hcommand).tokens_display
  apply parse_of_isQuery
  rw [tokens_intercalate_display, hphrases]
  exact isQuery_phrases h

/-- Commands that are read back from what is written can all be written. -/
theorem isWritable_of_parse_display
    (h : parse (" ".intercalate (commands.map Command.display)) = commands) :
    ∀ command ∈ commands, command.IsWritable := by
  have hreadable : ∀ command ∈ commands, command.IsWritable ∨ command = .select [] := by
    intro command hcommand
    rw [← h] at hcommand
    exact isWritable_of_mem_parse hcommand
  by_cases hquery : ∃ others, IsQuery (tokens (" ".intercalate (commands.map Command.display))) others
  · obtain ⟨others, hothers⟩ := hquery
    rw [parse_of_isQuery hothers] at h
    rw [h, tokens_intercalate_display] at hothers
    exact isWritable_of_isQuery_display hothers hreadable
  · -- nothing was read, so there is nothing that was written
    rw [parse_of_not_isQuery (not_exists.mp hquery)] at h
    simp [← h]

end ReadBack

/-- Written commands are read again exactly if they can be written, and every command that can be read is
one that can be written, but for a selection without columns. -/
theorem display_read_back :
    (∀ commands : List Command, parse (" ".intercalate (commands.map Command.display)) = commands ↔
      ∀ command ∈ commands, command.IsWritable) ∧
    ∀ line : String, ∀ command ∈ parse line, command.IsWritable ∨ command = .select [] := by
  refine ⟨fun commands => ⟨isWritable_of_parse_display, parse_display⟩, ?_⟩
  intro line command hcommand
  exact isWritable_of_mem_parse hcommand

/-- Arguments may spell keywords, and the names of columns may be empty before the last one. -/
theorem display_read_back_mixed :
    (∀ command ∈ [.load "take", .select ["", "a", "", "b"], .take Int64.minValue, .join "ü.csv" "id,",
      Command.countBy "select"], command.IsWritable) ∧
    parse "from take select ,a,,b take -9223372036854775808 join ü.csv id, countby select"
      = [.load "take", .select ["", "a", "", "b"], .take Int64.minValue, .join "ü.csv" "id,",
          .countBy "select"] ∧
    Command.select [] ∈ parse "select ,," ∧ ¬(Command.select []).IsWritable ∧
    Command.take 7 ∈ parse "TAKE 7rows" ∧ (Command.take 7).IsWritable := by
  have hwritable : ∀ command ∈ [.load "take", .select ["", "a", "", "b"], .take Int64.minValue,
      .join "ü.csv" "id,", Command.countBy "select"], command.IsWritable := by decide
  have hwritten : " ".intercalate (List.map Command.display [.load "take", .select ["", "a", "", "b"],
      .take Int64.minValue, .join "ü.csv" "id,", .countBy "select"])
      = "from take select ,a,,b take -9223372036854775808 join ü.csv id, countby select" := by
    decide +kernel
  have hread : Command.take 7 ∈ parse "TAKE 7rows" := by decide +kernel
  refine ⟨hwritable, ?_, by decide +kernel, by decide, hread, ?_⟩
  · rw [← hwritten]
    exact (display_read_back.1 _).mpr hwritable
  · exact (display_read_back.2 _ _ hread).resolve_right (by decide)

end CsvQuery

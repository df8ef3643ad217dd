/-
  CsvQuery.Proofs.Query.Grammar — the queries, and what a line is read as.

  A query is a list of phrases, each a keyword and its arguments, and the number of arguments is settled by
  the keyword alone.  So the tokens of a phrase can be told from those behind it without looking at what the
  arguments spell, and a list of tokens is a query in one way or not at all.

  Main results:
    • `Command.ofTokens?_eq_some_iff` — a command is read where its phrase stands
    • `parse_eq_iff` — a line is read as the commands of its one query, or as none if it has no query
-/
import CsvQuery.Proofs.Query.Arguments
import CsvQuery.Proofs.Text.Words

namespace CsvQuery

/-! ## §1. Keywords -/

namespace Keyword

/-- The token is the keyword, in some letter case. -/
def IsSpelled (keyword : Keyword) (token : String) : Prop :=
  token.toList.map smallLetter = keyword.name.toList

theorem mem_all (keyword : Keyword) : keyword ∈ all := by cases keyword <;> decide

theorem name_inj {first second : Keyword} (h : first.name = second.name) : first = second := by
  cases first <;> cases second <;> first | rfl | exact absurd h (by decide)

/-- A token spells one keyword at most, and that is the one it is read as. -/
theorem ofToken?_eq_some_iff {token : String} {keyword : Keyword} :
    ofToken? token = some keyword ↔ keyword.IsSpelled token := by
  have hspells (candidate : Keyword) :
      spells candidate.name.toList token.toList = true ↔ candidate.IsSpelled token := beq_iff_eq
  unfold ofToken?
  cases hfound : all.find? fun candidate => spells candidate.name.toList token.toList with
  | none =>
    have hnone := List.find?_eq_none.mp hfound keyword (mem_all keyword)
    simpa [← hspells] using hnone
  | some found =>
    have hfits := List.find?_some hfound
    have hname : found.IsSpelled token := (hspells found).mp hfits
    constructor
    · intro h
      exact Option.some_inj.mp h ▸ hname
    · intro h
      rw [name_inj (String.toList_inj.mp (hname.symm.trans h))]

end Keyword

/-! ## §2. Phrases -/

namespace Command

/-- The tokens are the keyword of the command and its arguments.  Names stand for themselves, a selection
lists its columns and a limit begins with its integer. -/
inductive IsPhrase : List String → Command → Prop where
  | load {token : String} (htoken : Keyword.load.IsSpelled token) (path : String) :
      IsPhrase [token, path] (.load path)
  | select {token columns : String} {names : List String} (htoken : Keyword.select.IsSpelled token)
      (hcolumns : IsNameList columns names) : IsPhrase [token, columns] (.select names)
  | take {token limit : String} {count : Int64} (htoken : Keyword.take.IsSpelled token)
      (hlimit : count.toInt = clamp64 (leadingValue limit)) : IsPhrase [token, limit] (.take count)
  | orderBy {token : String} (htoken : Keyword.orderBy.IsSpelled token) (column : String) :
      IsPhrase [token, column] (.orderBy column)
  | join {token : String} (htoken : Keyword.join.IsSpelled token) (path column : String) :
      IsPhrase [token, path, column] (.join path column)
  | countBy {token : String} (htoken : Keyword.countBy.IsSpelled token) (column : String) :
      IsPhrase [token, column] (.countBy column)

/-- A phrase at the front of a list of tokens is read, whatever follows it. -/
theorem IsPhrase.ofTokens?_append {phrase : List String} {command : Command}
    (h : IsPhrase phrase command) (rest : List String) :
    ofTokens? (phrase ++ rest) = (some command, rest) := by
  cases h with
  | load htoken path => simp [ofTokens?, Keyword.ofToken?_eq_some_iff.mpr htoken]
  | select htoken hcolumns =>
    simp [ofTokens?, Keyword.ofToken?_eq_some_iff.mpr htoken, isNameList_iff.mp hcolumns]
  | take htoken hlimit =>
    rw [← toInt_leadingInteger, Int64.toInt_inj] at hlimit
    simp [ofTokens?, Keyword.ofToken?_eq_some_iff.mpr htoken, hlimit]
  | orderBy htoken column => simp [ofTokens?, Keyword.ofToken?_eq_some_iff.mpr htoken]
  | join htoken path column => simp [ofTokens?, Keyword.ofToken?_eq_some_iff.mpr htoken]
  | countBy htoken column => simp [ofTokens?, Keyword.ofToken?_eq_some_iff.mpr htoken]

/-- A command is read where its phrase stands. -/
theorem ofTokens?_eq_some_iff {tokens left : List String} {command : Command} :
    ofTokens? tokens = (some command, left) ↔
      ∃ phrase, IsPhrase phrase command ∧ phrase ++ left = tokens := by
  constructor
  · intro h
    unfold ofTokens? at h
    split at h
    case h_1 => cases h
    case h_2 token rest =>
      split at h
      case h_1 => cases h
      case h_2 keyword hkeyword =>
        have htoken := Keyword.ofToken?_eq_some_iff.mp hkeyword
        -- the arguments that the keyword asks for are there, or nothing was read
        split at h
        case h_1 => cases h
        case h_2 path rest =>
          cases h
          exact ⟨_, .load htoken path, rfl⟩
        case h_3 columns rest =>
          cases h
          exact ⟨_, .select htoken (isNameList_iff.mpr rfl), rfl⟩
        case h_4 limit rest =>
          cases h
          exact ⟨_, .take htoken (toInt_leadingInteger limit), rfl⟩
        case h_5 column rest =>
          cases h
          exact ⟨_, .orderBy htoken column, rfl⟩
        case h_6 column rest =>
          cases h
          exact ⟨_, .countBy htoken column, rfl⟩
        case h_7 => cases h
        case h_8 path column rest =>
          cases h
          exact ⟨_, .join htoken path column, rfl⟩
  · rintro ⟨phrase, hphrase, rfl⟩
    exact hphrase.ofTokens?_append left

end Command

/-! ## §3. Queries -/

/-- The tokens are the phrases of these commands, one after another. -/
inductive IsQuery : List String → List Command → Prop where
  | nil : IsQuery [] []
  | cons {phrase rest : List String} {command : Command} {commands : List Command}
      (hphrase : command.IsPhrase phrase) (hrest : IsQuery rest commands) :
      IsQuery (phrase ++ rest) (command :: commands)

/-- Reading goes on behind a phrase with its command. -/
theorem read_of_isPhrase {phrase : List String} {command : Command} (h : command.IsPhrase phrase)
    (rest : List String) (before : List Command) :
    commandsOfTokens.read before (phrase ++ rest)
      = commandsOfTokens.read (command :: before) rest := by
  have hread := h.ofTokens?_append rest
  cases htokens : phrase ++ rest with
  | nil =>
    -- a phrase has a token at least
    rw [htokens] at hread
    cases hread
  | cons token behind =>
    rw [htokens] at hread
    rw [commandsOfTokens.read]
    split
    case h_1 left hnone => cases hnone.symm.trans hread
    case h_2 found left hsome =>
      cases hsome.symm.trans hread
      rfl

/-- The commands of a query are read to the end of its tokens. -/
theorem IsQuery.read_eq {tokens : List String} {commands : List Command} (h : IsQuery tokens commands)
    (before : List Command) :
    commandsOfTokens.read before tokens = (before.reverse ++ commands, []) := by
  induction h generalizing before with
  | nil => simp [commandsOfTokens.read]
  | @cons phrase rest command commands hphrase _ ih =>
    rw [read_of_isPhrase hphrase, ih, List.reverse_cons, List.append_assoc]
    rfl

/-- Tokens that are no query are read as no commands, whatever was read before them. -/
theorem read_eq_nil {tokens : List String} (h : ∀ commands, ¬IsQuery tokens commands)
    (before : List Command) : (commandsOfTokens.read before tokens).1 = [] := by
  fun_induction commandsOfTokens.read before tokens with
  | case1 before => exact absurd .nil (h [])
  | case2 before token rest left hread => rfl
  | case3 before token rest command left hread ih =>
    -- a query behind the command that was read would make one of all the tokens
    obtain ⟨phrase, hphrase, htokens⟩ := Command.ofTokens?_eq_some_iff.mp hread
    refine ih fun commands hcommands => h (command :: commands) ?_
    rw [← htokens]
    exact .cons hphrase hcommands

/-- The tokens of a line are its words. -/
theorem tokens_eq_iff {line : String} {found : List String} :
    tokens line = found ↔ HasWords line.toList (found.map String.toList) := by
  rw [hasWords_iff]
  unfold tokens
  constructor
  · rintro rfl
    simp
  · intro h
    simp [h]

/-- A line whose tokens are a query is parsed to its commands. -/
theorem parse_of_isQuery {line : String} {commands : List Command}
    (h : IsQuery (tokens line) commands) : parse line = commands :=
  congrArg Prod.fst (h.read_eq [])

theorem parse_of_not_isQuery {line : String} (h : ∀ commands, ¬IsQuery (tokens line) commands) :
    parse line = [] :=
  read_eq_nil h []

/-- A line is read as the commands of its one query, or as none if it has no query. -/
theorem parse_eq_iff {line : String} {commands : List Command} :
    parse line = commands ↔
      ∃ tokens : List String, HasWords line.toList (tokens.map String.toList) ∧
        (IsQuery tokens commands ∨ commands = [] ∧ ∀ others, ¬IsQuery tokens others) := by
  constructor
  · rintro rfl
    refine ⟨tokens line, tokens_eq_iff.mp rfl, ?_⟩
    by_cases h : ∃ others, IsQuery (tokens line) others
    · obtain ⟨others, h⟩ := h
      rw [parse_of_isQuery h]
      exact .inl h
    · rw [not_exists] at h
      exact .inr ⟨parse_of_not_isQuery h, h⟩
  · rintro ⟨found, hfound, h⟩
    obtain rfl := tokens_eq_iff.mpr hfound
    rcases h with h | ⟨rfl, hnone⟩
    · exact parse_of_isQuery h
    · exact parse_of_not_isQuery hnone

/-- In the place of an argument a keyword is none. -/
example : parse "From select select a,,b,, take -12x" =
    [.load "select", .select ["a", "", "b"], .take (-12)] := by
  decide +kernel

end CsvQuery

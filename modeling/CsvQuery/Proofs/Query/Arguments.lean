/-
  CsvQuery.Proofs.Query.Arguments — what the arguments of a command mean.

  A limit is the integer at the start of its token.  Its digits are taken one by one, each time with the
  number cut to 64 bits; that gives the whole number cut once, since a number that has passed a bound moves
  on away from it.  The columns of a selection are the pieces between the commas of its token, and the token
  with the empty pieces at the end left out has no other reading.

  Main results:
    • `toInt_leadingInteger` — the limit is the integer of its token, cut to 64 bits
    • `isNameList_iff` — the column names of a token are the one list that the token writes out
-/
import Mathlib.Data.List.DropRight
import CsvQuery.Query.Parser

namespace CsvQuery

/-! ## §1. Limits -/

/-- The integer of 64 bits that is nearest to an integer. -/
def clamp64 (n : Int) : Int :=
  if n < Int64.minValue.toInt then Int64.minValue.toInt
  else if Int64.maxValue.toInt < n then Int64.maxValue.toInt
  else n

/-- The word nearest to an integer stands for the integer cut to the range. -/
theorem toInt_ofIntClamp (n : Int) : (Int64.ofIntClamp n).toInt = clamp64 n := by
  unfold Int64.ofIntClamp clamp64
  split
  case isFalse hlow => rw [if_pos (by omega)]
  case isTrue hlow =>
    rw [if_neg (by omega)]
    split
    case isTrue hhigh => rw [Int64.toInt_ofIntLE, if_neg (by omega)]
    case isFalse hhigh => rw [if_pos (by omega)]

/-- The integer at the start of a token: a sign, if there is one, and all the digits behind it. -/
def leadingValue (token : String) : Int :=
  let (negative, rest) := splitSign token.toList
  signed negative (digitsValue (rest.takeWhile Char.isDigit))

/-- One more digit, after the cut as before it. -/
theorem appendDigit_ofIntClamp (negative : Bool) (n : Nat) (digit : Char) :
    appendDigit negative (Int64.ofIntClamp (signed negative n)) digit
      = Int64.ofIntClamp (signed negative (10 * n + (digit.toNat - '0'.toNat))) := by
  apply Int64.toInt_inj.mp
  unfold appendDigit
  simp only [toInt_ofIntClamp]
  -- past a bound both numbers stay at it, since the digit counts in the direction of the sign
  have hmin : Int64.minValue.toInt = -9223372036854775808 := rfl
  have hmax : Int64.maxValue.toInt = 9223372036854775807 := rfl
  unfold clamp64
  rw [hmin, hmax]
  cases negative <;> simp only [signed, Bool.false_eq_true, if_false, if_true] <;> omega

/-- Digits that are appended one by one, each with its own clamping, are clamped once. -/
theorem foldl_appendDigit (negative : Bool) (digits : List Char) (n : Nat) :
    digits.foldl (appendDigit negative) (Int64.ofIntClamp (signed negative n))
      = Int64.ofIntClamp (signed negative (Nat.ofDigitChars 10 digits n)) := by
  -- the number that is cut at each digit goes along with the one that is not
  induction digits generalizing n with
  | nil => rw [List.foldl_nil, Nat.ofDigitChars_nil]
  | cons digit digits ih =>
    rw [List.foldl_cons, appendDigit_ofIntClamp, ih, Nat.ofDigitChars_cons]

/-- The limit is the integer of its token, cut to 64 bits. -/
theorem toInt_leadingInteger (token : String) :
    (leadingInteger token).toInt = clamp64 (leadingValue token) := by
  unfold leadingInteger leadingValue digitsValue
  rcases splitSign token.toList with ⟨negative, rest⟩
  have hzero : (0 : Int64) = Int64.ofIntClamp (signed negative 0) := by cases negative <;> rfl
  show (List.foldl (appendDigit negative) 0 (rest.takeWhile Char.isDigit)).toInt = _
  rw [hzero, foldl_appendDigit, toInt_ofIntClamp]

/-! ## §2. Selected columns -/

/-- The token writes out these column names: each but the last ends at a comma, more commas at the end
add nothing, and so the last name is not empty. -/
structure IsNameList (token : String) (names : List String) : Prop where
  written : ∃ count, names ++ List.replicate count "" ≠ [] ∧
    ",".intercalate (names ++ List.replicate count "") = token
  comma_free : ∀ name ∈ names, ',' ∉ name.toList
  last_ne : names.getLast? ≠ some ""

/-- The pieces of a token between its commas. -/
def commaPieces (token : String) : List String := (token.toList.splitOn ',').map String.ofList

theorem columnNames_eq (token : String) :
    columnNames token = (commaPieces token).rdropWhile String.isEmpty := rfl

theorem commaPieces_ne_nil (token : String) : commaPieces token ≠ [] := by
  simp [commaPieces, List.splitOn_ne_nil]

/-- A piece between separators holds no separator. -/
theorem not_mem_of_mem_splitOn {α : Type} [BEq α] [LawfulBEq α] {separator : α} {text : List α} :
    ∀ piece ∈ text.splitOn separator, separator ∉ piece := by
  induction text with
  | nil => simp
  | cons c text ih =>
    intro piece hpiece
    rw [List.splitOn_cons_eq_if_modifyHead] at hpiece
    split at hpiece
    case isTrue =>
      rcases List.mem_cons.mp hpiece with rfl | hlater
      · exact List.not_mem_nil
      · exact ih piece hlater
    case isFalse hne =>
      -- the character goes to the front of the first piece
      obtain ⟨first, later, hpieces⟩ := List.exists_cons_of_ne_nil (List.splitOn_ne_nil separator text)
      rw [hpieces] at ih hpiece
      rcases List.mem_cons.mp hpiece with rfl | hlater
      · intro hmem
        rcases List.mem_cons.mp hmem with rfl | hmem
        · exact hne (beq_self_eq_true _)
        · exact ih first List.mem_cons_self hmem
      · exact ih piece (List.mem_cons_of_mem first hlater)

/-- There are no commas in the pieces between them. -/
theorem comma_not_mem_commaPieces (token : String) :
    ∀ piece ∈ commaPieces token, ',' ∉ piece.toList := by
  intro piece hpiece
  obtain ⟨part, hpart, rfl⟩ := List.mem_map.mp hpiece
  rw [String.toList_ofList]
  exact not_mem_of_mem_splitOn part hpart

/-- The pieces of a token, with commas between them, are the token. -/
theorem intercalate_commaPieces (token : String) : ",".intercalate (commaPieces token) = token := by
  apply String.toList_inj.mp
  have hpieces : (commaPieces token).map String.toList = token.toList.splitOn ',' := by
    simp [commaPieces]
  rw [String.toList_intercalate, hpieces]
  exact List.intercalate_splitOn ','

/-- Names without commas are the pieces of the token that they make. -/
theorem commaPieces_intercalate {names : List String} (hne : names ≠ [])
    (hfree : ∀ name ∈ names, ',' ∉ name.toList) : commaPieces (",".intercalate names) = names := by
  unfold commaPieces
  have hcomma : ",".toList = [','] := rfl
  rw [String.toList_intercalate, hcomma, List.splitOn_intercalate]
  · simp
  · simpa using hfree
  · simpa using hne

/-- Only the empty texts at the end of a list are left out. -/
theorem rdropWhile_isEmpty_eq_iff {pieces names : List String} :
    pieces.rdropWhile String.isEmpty = names ↔
      (∃ count, names ++ List.replicate count "" = pieces) ∧ names.getLast? ≠ some "" := by
  constructor
  · rintro rfl
    refine ⟨⟨(pieces.rtakeWhile String.isEmpty).length, ?_⟩, fun hlast => ?_⟩
    · have hempties : List.replicate (pieces.rtakeWhile String.isEmpty).length ""
          = pieces.rtakeWhile String.isEmpty :=
        (List.eq_replicate_of_mem fun piece hpiece =>
          String.isEmpty_iff.mp (List.mem_rtakeWhile_imp hpiece)).symm
      rw [hempties]
      exact List.rdropWhile_append_rtakeWhile
    · have hne := List.ne_nil_of_mem (List.mem_of_getLast? hlast)
      refine List.rdropWhile_last_not String.isEmpty pieces hne ?_
      rw [List.getLast_of_getLast?_eq_some hlast]
      rfl
  · rintro ⟨⟨count, rfl⟩, hlast⟩
    induction count with
    | zero =>
      rw [List.replicate_zero, List.append_nil, List.rdropWhile_eq_self_iff]
      intro hne hempty
      rw [String.isEmpty_iff] at hempty
      exact hlast (by rw [List.getLast?_eq_some_getLast hne, hempty])
    | succ count ih =>
      rw [List.replicate_succ', ← List.append_assoc, List.rdropWhile_concat_pos _ _ _ rfl, ih]

/-- The column names of a token are the one list that the token writes out. -/
theorem isNameList_iff {token : String} {names : List String} :
    IsNameList token names ↔ columnNames token = names := by
  rw [columnNames_eq, rdropWhile_isEmpty_eq_iff]
  constructor
  · rintro ⟨⟨count, hne, rfl⟩, hfree, hlast⟩
    refine ⟨⟨count, (commaPieces_intercalate hne fun piece hpiece => ?_).symm⟩, hlast⟩
    rcases List.mem_append.mp hpiece with hname | hempty
    · exact hfree piece hname
    · rw [List.eq_of_mem_replicate hempty]
      exact List.not_mem_nil
  · rintro ⟨⟨count, hpieces⟩, hlast⟩
    refine ⟨⟨count, ?_, ?_⟩, fun name hname => ?_, hlast⟩
    · rw [hpieces]
      exact commaPieces_ne_nil token
    · rw [hpieces]
      exact intercalate_commaPieces token
    · refine comma_not_mem_commaPieces token name ?_
      rw [← hpieces]
      exact List.mem_append_left _ hname

end CsvQuery

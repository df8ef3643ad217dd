/-
  CsvQuery.Json.Token — the tokens of a JSON document.

  A document is cut into tokens from left to right.  What is no token becomes a broken one that keeps
  the fault it would be, and the cutting stops there: whether that fault is met at all is for the
  reader of the tokens to say, who may find an earlier one.
-/
import CsvQuery.Json.Number
import CsvQuery.Json.Quoted

namespace CsvQuery.Json

/-! ## §1. Tokens -/

/-- A token of a JSON document. -/
inductive Token where
  | openObject
  | closeObject
  | openArray
  | closeArray
  | colon
  | comma
  | null
  | bool
  | text (content : Quoted)
  | number (value : Number)
  /-- What begins as a number and does not go on as one; `atEnd` if the document ends there. -/
  | brokenNumber (atEnd : Bool)
  /-- What begins no token, or begins a word of the language and does not go on as it. -/
  | broken (fault : JsonFault)
  deriving DecidableEq

/-- White space between tokens. -/
def isSpace (c : Char) : Bool := c = ' ' || c = '\n' || c = '\t' || c = '\r'

/-! ## §2. Words and numbers -/

/-- Reads the rest of a word of the language. -/
def readWord (token : Token) : (word text : List Char) → Token × List Char
  | [], text => (token, text)
  | _ :: _, [] => (.broken .truncated, [])
  | w :: word, c :: text =>
    if c = w then readWord token word text else (.broken .malformed, [])

/-- The token of a number that breaks off before the given text. -/
def brokenBefore (text : List Char) : Token × List Char := (.brokenNumber text.isEmpty, [])

/-- Reads the exponent of a number. -/
def readExponent (n : Number) (text : List Char) : Token × List Char :=
  match text with
  | c :: rest =>
    if c = 'e' ∨ c = 'E' then
      let (negative, rest) := splitSign rest
      let digits := rest.takeWhile Char.isDigit
      let after := rest.dropWhile Char.isDigit
      if digits.isEmpty then brokenBefore after
      else (.number { n with exponent := some (signed negative (digitsValue digits)) }, after)
    else (.number n, text)
  | [] => (.number n, [])

/-- Reads the fraction and the exponent of a number. -/
def readFraction (n : Number) (text : List Char) : Token × List Char :=
  match text with
  | '.' :: rest =>
    let digits := rest.takeWhile Char.isDigit
    let after := rest.dropWhile Char.isDigit
    if digits.isEmpty then brokenBefore after
    else readExponent { n with fraction := digits } after
  | text => readExponent n text

/-- Reads a number after its sign: a zero with no digit after it, or digits that open with none. -/
def readNumber (negative : Bool) (text : List Char) : Token × List Char :=
  let digits := text.takeWhile Char.isDigit
  let after := text.dropWhile Char.isDigit
  match digits with
  | [] => brokenBefore after
  | '0' :: _ :: _ => (.brokenNumber false, [])
  | digits => readFraction ⟨negative, digits, [], none⟩ after

/-! ## §3. Cutting a document -/

/-- The token that a character opens, and the text after it. -/
def readToken (c : Char) (rest : List Char) : Token × List Char :=
  match c with
  | '\x7b' => (.openObject, rest)
  | '\x7d' => (.closeObject, rest)
  | '[' => (.openArray, rest)
  | ']' => (.closeArray, rest)
  | ':' => (.colon, rest)
  | ',' => (.comma, rest)
  | '"' => (.text (Quoted.read rest).1, (Quoted.read rest).2)
  | 'n' => readWord .null ['u', 'l', 'l'] rest
  | 't' => readWord .bool ['r', 'u', 'e'] rest
  | 'f' => readWord .bool ['a', 'l', 's', 'e'] rest
  | '-' => readNumber true rest
  | c => if c.isDigit then readNumber false (c :: rest) else (.broken .malformed, [])

/-- Reading a word takes characters from the front only. -/
theorem length_readWord_le (token : Token) (word text : List Char) :
    (readWord token word text).2.length ≤ text.length := by
  fun_induction readWord token word text with
  | case1 => exact Nat.le_refl _
  | case2 => exact Nat.zero_le _
  | case3 word w text ih => exact Nat.le_succ_of_le ih
  | case4 => exact Nat.zero_le _

/-- Splitting off a sign takes at most one character. -/
theorem length_splitSign_le (text : List Char) : (splitSign text).2.length ≤ text.length := by
  unfold splitSign
  split <;> simp

/-- Dropping characters from the front leaves no more than there were. -/
theorem length_dropWhile_le (p : Char → Bool) (text : List Char) :
    (text.dropWhile p).length ≤ text.length :=
  (List.dropWhile_sublist p).length_le

/-- Reading an exponent takes characters from the front only. -/
theorem length_readExponent_le (n : Number) (text : List Char) :
    (readExponent n text).2.length ≤ text.length := by
  unfold readExponent
  split
  case h_1 c rest =>
    have hs := length_splitSign_le rest
    have hd := length_dropWhile_le Char.isDigit (splitSign rest).2
    split
    · dsimp only
      split
      · simp [brokenBefore]
      · simp only [List.length_cons]; omega
    · simp
  case h_2 => simp

/-- Reading a fraction takes characters from the front only. -/
theorem length_readFraction_le (n : Number) (text : List Char) :
    (readFraction n text).2.length ≤ text.length := by
  unfold readFraction
  split
  case h_1 rest =>
    have hd := length_dropWhile_le Char.isDigit rest
    have he := length_readExponent_le { n with fraction := rest.takeWhile Char.isDigit }
      (rest.dropWhile Char.isDigit)
    dsimp only
    split
    · simp [brokenBefore]
    · simp only [List.length_cons]; omega
  case h_2 => exact length_readExponent_le n text

/-- Reading a number takes at least the digits at the front. -/
theorem length_readNumber_le (negative : Bool) (text : List Char) :
    (readNumber negative text).2.length ≤ (text.dropWhile Char.isDigit).length := by
  unfold readNumber
  dsimp only
  split
  · simp [brokenBefore]
  · simp
  · exact length_readFraction_le _ _

/-- What follows a token is shorter than the text that the token opens. -/
theorem length_readToken_le (c : Char) (rest : List Char) :
    (readToken c rest).2.length ≤ rest.length := by
  unfold readToken
  split
  case h_7 => exact Quoted.length_read_le rest
  case h_8 => exact length_readWord_le _ _ _
  case h_9 => exact length_readWord_le _ _ _
  case h_10 => exact length_readWord_le _ _ _
  case h_11 =>
    exact Nat.le_trans (length_readNumber_le true rest) (length_dropWhile_le _ _)
  case h_12 =>
    split
    case isTrue h =>
      have hn := length_readNumber_le false (c :: rest)
      have hd := length_dropWhile_le Char.isDigit rest
      rw [List.dropWhile_cons_of_pos h] at hn
      exact Nat.le_trans hn hd
    case isFalse => simp
  all_goals simp

/-- The tokens of a document. -/
def tokens : List Char → List Token
  | [] => []
  | c :: rest =>
    if isSpace c then tokens rest
    else (readToken c rest).1 :: tokens (readToken c rest).2
termination_by text => text.length
decreasing_by
  · simp
  · exact Nat.lt_succ_of_le (length_readToken_le c rest)

end CsvQuery.Json

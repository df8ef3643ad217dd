/-
  CsvQuery.Proofs.Json.Written — what is written in a document is read back.

  A written text is quoted, and its quotes and backslashes are escaped, so the reading of it ends at the
  quote that closes it.  A character is read back as a character or, if it is a control character without
  a letter of its own, as a code unit that is no surrogate.  A written number is its digits, which open
  with a zero only if there is no other digit, and it ends before a character that no number goes on
  with.  So a document is cut into the tokens that it was made of, whatever follows them, and each token
  is read as the value that it was written for.

  Main results:
    • `Quoted.read_written`, `Quoted.text_written` — texts
    • `tokens_writeText`, `tokens_digits` — the tokens of written texts and numbers
    • `Reader.run_text`, `Reader.run_word` — the values of these tokens
-/
import CsvQuery.Json.Reader
import CsvQuery.Proofs.Number.Spelling

namespace CsvQuery.Json

/-! ## §1. Characters -/

/-- The piece that a written character is read as. -/
def writtenPiece (c : Char) : Piece :=
  if c.toNat < 0x20 ∧ c ∉ ['\x08', '\x0C', '\n', '\r', '\t'] then .unit c.toNat else .char c

/-- The four hexadecimal digits of a control character are read as its code unit. -/
theorem codeUnit?_hexDigit {n : Nat} (h : n < 0x20) :
    codeUnit? '0' '0' (hexDigit (n / 16)) (hexDigit (n % 16)) = some n := by
  revert n
  decide

/-- A character that is written as it stands is read as it stands. -/
theorem Quoted.read_plain {c : Char} (hquote : c ≠ '"') (hbackslash : c ≠ '\\')
    (hcontrol : ¬c.toNat < 0x20) (rest : List Char) :
    read (c :: rest) = cons (.char c) (read rest) := by
  rw [read.eq_def]
  split
  case h_7 heq =>
    obtain ⟨rfl, rfl⟩ := List.cons.inj heq
    rw [if_neg hcontrol]
  all_goals simp_all

/-- One written character is read as its piece, escaped or not. -/
theorem Quoted.read_writeChar (c : Char) (rest : List Char) :
    read (writeChar c ++ rest) = cons (writtenPiece c) (read rest) := by
  unfold writeChar
  split
  case h_8 hquote hbackslash hbackspace hfeed hline hreturn htab =>
    split
    case isTrue hcontrol =>
      have hpiece : writtenPiece c = .unit c.toNat := by
        unfold writtenPiece
        rw [if_pos ⟨hcontrol, by simp_all⟩]
      show read ('\\' :: 'u' :: '0' :: '0' :: hexDigit (c.toNat / 16) :: hexDigit (c.toNat % 16) :: rest) = _
      rw [read, codeUnit?_hexDigit hcontrol, hpiece]
    case isFalse hcontrol =>
      have hpiece : writtenPiece c = .char c := by
        unfold writtenPiece
        rw [if_neg (fun h => hcontrol h.1)]
      rw [hpiece]
      exact read_plain hquote hbackslash hcontrol rest
  all_goals rfl

/-- A written character stands for itself. -/
theorem joinPieces_writtenPiece (fault : Option JsonFault) (c : Char) (rest : List Piece) :
    joinPieces fault (writtenPiece c :: rest) = (joinPieces fault rest).map (c :: ·) := by
  unfold writtenPiece
  split
  case isTrue h =>
    -- a control character is below the surrogates
    have hcontrol := h.1
    have htrail : isTrail c.toNat = false := by
      unfold isTrail
      simp only [Bool.and_eq_false_iff, decide_eq_false_iff_not]
      omega
    have hlead : isLead c.toNat = false := by
      unfold isLead
      simp only [Bool.and_eq_false_iff, decide_eq_false_iff_not]
      omega
    rw [joinPieces.eq_def]
    simp [htrail, hlead]
  case isFalse => rfl

/-! ## §2. Texts -/

/-- The quoted text that a written text is read as. -/
def written (text : String) : Quoted := ⟨text.toList.map writtenPiece, none⟩

/-- A written text is read up to the quote that closes it, and no further. -/
theorem Quoted.read_written (text rest : List Char) :
    read (text.flatMap writeChar ++ '"' :: rest) = (⟨text.map writtenPiece, none⟩, rest) := by
  induction text with
  | nil => rfl
  | cons c text ih =>
    rw [List.flatMap_cons, List.append_assoc, read_writeChar, ih]
    rfl

/-- Written characters stand for themselves, one after the other. -/
theorem joinPieces_map_writtenPiece (chars : List Char) :
    joinPieces none (chars.map writtenPiece) = .ok chars := by
  induction chars with
  | nil => rfl
  | cons c chars ih =>
    rw [List.map_cons, joinPieces_writtenPiece, ih]
    rfl

/-- A written text is read back. -/
theorem Quoted.text_written (text : String) : (written text).text = .ok text := by
  show (joinPieces none (text.toList.map writtenPiece)).map String.ofList = _
  rw [joinPieces_map_writtenPiece]
  show Except.ok (String.ofList text.toList) = _
  rw [String.ofList_toList]

/-! ## §3. Tokens -/

theorem tokens_space {c : Char} (h : isSpace c = true) (rest : List Char) :
    tokens (c :: rest) = tokens rest := by
  rw [tokens, if_pos h]

/-- A character that is no space opens a token. -/
theorem tokens_cons {c : Char} (h : isSpace c = false) (rest : List Char) :
    tokens (c :: rest) = (readToken c rest).1 :: tokens (readToken c rest).2 := by
  rw [tokens, h]
  rfl

/-- A written text makes one token, whatever follows. -/
theorem tokens_writeText (text : String) (rest : List Char) :
    tokens (writeText text ++ rest) = .text (written text) :: tokens rest := by
  have hopen : writeText text ++ rest = '"' :: (text.toList.flatMap writeChar ++ '"' :: rest) := by
    simp [writeText]
  have hread : readToken '"' (text.toList.flatMap writeChar ++ '"' :: rest)
      = (.text (written text), rest) := by
    show (Token.text (Quoted.read _).1, (Quoted.read _).2) = _
    rw [Quoted.read_written]
    rfl
  rw [hopen, tokens_cons (by decide), hread]

/-- A number ends before the character. -/
def EndsNumber (c : Char) : Prop := c.isDigit = false ∧ c ≠ '.' ∧ c ≠ 'e' ∧ c ≠ 'E'

instance (c : Char) : Decidable (EndsNumber c) :=
  inferInstanceAs (Decidable (c.isDigit = false ∧ c ≠ '.' ∧ c ≠ 'e' ∧ c ≠ 'E'))

/-- A number without a point or an exponent behind its digits has no more parts. -/
theorem readFraction_of_endsNumber {c : Char} (h : EndsNumber c) (n : Number) (rest : List Char) :
    readFraction n (c :: rest) = (.number n, c :: rest) := by
  obtain ⟨-, hpoint, hlower, hupper⟩ := h
  unfold readFraction
  split
  case h_1 heq => exact absurd (List.cons.inj heq).1 hpoint
  case h_2 =>
    show (if c = 'e' ∨ c = 'E' then _ else _) = _
    rw [if_neg (by simp [hlower, hupper])]

/-- The token that the digits of a number make. -/
def digitsToken (n : Nat) : Token := .number ⟨false, Nat.toDigits 10 n, [], none⟩

/-- The digits of a number are read as one token. -/
theorem readNumber_digits (n : Nat) {c : Char} (h : EndsNumber c) (rest : List Char) :
    readNumber false (Nat.toDigits 10 n ++ c :: rest) = (digitsToken n, c :: rest) := by
  have hahead : NoDigitAhead (c :: rest) := by
    intro d hd
    rw [← Option.some.inj hd]
    exact h.1
  obtain ⟨hdigits, hafter⟩ := takeWhile_isDigit_append (isDigit_toDigits n) hahead
  unfold readNumber
  rw [hdigits, hafter]
  dsimp only
  split
  case h_1 hnone => exact absurd hnone Nat.toDigits_ne_nil
  case h_2 d more hzero =>
    -- only zero opens with a zero, and it has no other digit
    have hn : n = 0 := eq_zero_of_head?_toDigits (by rw [hzero]; rfl)
    rw [hn] at hzero
    have hlength := congrArg List.length hzero
    simp at hlength
  case h_3 => exact readFraction_of_endsNumber h _ rest

theorem readToken_of_isDigit {c : Char} (h : c.isDigit = true) (rest : List Char) :
    readToken c rest = readNumber false (c :: rest) := by
  unfold readToken
  split
  case h_12 => rw [if_pos h]
  all_goals exact absurd h (by decide)

theorem isSpace_of_isDigit {c : Char} (h : c.isDigit = true) : isSpace c = false := by
  cases hspace : isSpace c with
  | false => rfl
  | true =>
    have hfour : c = ' ' ∨ c = '\n' ∨ c = '\t' ∨ c = '\r' := by simpa [isSpace, or_assoc] using hspace
    obtain rfl | rfl | rfl | rfl := hfour <;> exact absurd h (by decide)

/-- A written number makes one token if what follows ends it. -/
theorem tokens_digits (n : Nat) {c : Char} (h : EndsNumber c) (rest : List Char) :
    tokens (Nat.toDigits 10 n ++ c :: rest) = digitsToken n :: tokens (c :: rest) := by
  obtain ⟨d, more, hdigits, hd⟩ := exists_isDigit_cons Nat.toDigits_ne_nil (isDigit_toDigits n)
  have hread := readNumber_digits n h rest
  rw [hdigits, List.cons_append] at hread ⊢
  rw [tokens_cons (isSpace_of_isDigit hd), readToken_of_isDigit hd, hread]

/-! ## §4. Values -/

/-- The digits of a word of 64 bits are read back as the word. -/
theorem word?_digits (word : UInt64) :
    Number.word? ⟨false, Nat.toDigits 10 word.toNat, [], none⟩ = some word := by
  have hvalue : digitsValue (Nat.toDigits 10 word.toNat) = word.toNat := digitsValue_toDigits _
  have hbound : word.toNat < Number.wordBound := word.toNat_lt_size
  show (if digitsValue (Nat.toDigits 10 word.toNat) < Number.wordBound then _ else _) = _
  rw [hvalue, if_pos hbound, UInt64.ofNat_toNat]

namespace Reader

variable {α β : Type} {first rest : List Token}

/-- A reader goes on with what the one before it has left. -/
theorem run_bind {x : Reader α} {a : α} (h : x.run first = .ok (a, rest)) (f : α → Reader β) :
    (x >>= f).run first = (f a).run rest := by
  show (x.run first >>= fun p => (f p.1).run p.2) = _
  rw [h]
  rfl

theorem run_next (token : Token) (rest : List Token) : next.run (token :: rest) = .ok (token, rest) := rfl

theorem run_expect (token : Token) (rest : List Token) :
    (expect token).run (token :: rest) = .ok ((), rest) := by
  unfold expect
  rw [run_bind (run_next token rest), if_pos rfl]
  rfl

theorem run_sees_of_ne {token other : Token} (h : other ≠ token) (rest : List Token) :
    (sees token).run (other :: rest) = .ok (false, other :: rest) := by
  show Except.ok (decide ((other :: rest).head? = some token), other :: rest) = _
  rw [List.head?_cons, decide_eq_false (by simpa using h)]

theorem run_written (value : String) (rest : List Token) :
    (MonadExcept.ofExcept (written value).text : Reader String).run rest = .ok (value, rest) := by
  rw [Quoted.text_written]
  rfl

/-- A reader of texts gets back the text that was written. -/
theorem run_text (value : String) (rest : List Token) :
    text.run (.text (written value) :: rest) = .ok (value, rest) := by
  unfold text
  rw [run_bind (run_next _ rest)]
  exact run_written value rest

theorem run_key (value : String) (rest : List Token) :
    key.run (.text (written value) :: rest) = .ok (value, rest) := by
  unfold key
  rw [run_bind (run_next _ rest)]
  exact run_written value rest

/-- A reader of words gets back the word that was written. -/
theorem run_word (value : UInt64) (rest : List Token) :
    word.run (digitsToken value.toNat :: rest) = .ok (value, rest) := by
  unfold word
  rw [run_bind (run_next _ rest)]
  dsimp only [digitsToken]
  rw [word?_digits]
  rfl

end Reader

end CsvQuery.Json

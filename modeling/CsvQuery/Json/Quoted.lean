/-
  CsvQuery.Json.Quoted — the quoted texts of a JSON document.

  Reading a quoted text gives its pieces, characters and code units written as escapes, and what
  stopped the reading before the closing quote, if anything did.  Only when the text is wanted are
  the code units joined to characters: a leading surrogate has to be followed at once by the escape
  of a trailing one.  Writing escapes the quote, the backslash and the control characters, and leaves
  all other characters as they are.
-/
import CsvQuery.Error

namespace CsvQuery.Json

/-! ## §1. Reading -/

/-- A piece of a quoted text. -/
inductive Piece where
  | char (c : Char)
  /-- A code unit of 16 bits, written as an escape. -/
  | unit (code : Nat)
  deriving DecidableEq

/-- A quoted text as far as it was read. -/
structure Quoted where
  pieces : List Piece
  /-- What stopped the reading before the closing quote. -/
  fault : Option JsonFault
  deriving DecidableEq

/-- The value of a hexadecimal digit. -/
def hexValue? (c : Char) : Option Nat :=
  if '0' ≤ c ∧ c ≤ '9' then some (c.toNat - '0'.toNat)
  else if 'a' ≤ c ∧ c ≤ 'f' then some (c.toNat - 'a'.toNat + 10)
  else if 'A' ≤ c ∧ c ≤ 'F' then some (c.toNat - 'A'.toNat + 10)
  else none

/-- The code unit that four hexadecimal digits denote. -/
def codeUnit? (a b c d : Char) : Option Nat := do
  return 4096 * (← hexValue? a) + 256 * (← hexValue? b) + 16 * (← hexValue? c) + (← hexValue? d)

/-- The character that a backslash and a letter stand for. -/
def escaped? : Char → Option Char
  | '"' => some '"'
  | '\\' => some '\\'
  | '/' => some '/'
  | 'b' => some '\x08'
  | 'f' => some '\x0C'
  | 'n' => some '\n'
  | 'r' => some '\r'
  | 't' => some '\t'
  | _ => none

/-- The fault of an escape whose four digits are not all there: bytes decide what is missing. -/
def shortEscape (rest : List Char) : JsonFault :=
  if (String.ofList rest).utf8ByteSize < 4 then .truncated else .malformed

namespace Quoted

/-- The text that breaks off at once. -/
def broken (fault : JsonFault) : Quoted × List Char := (⟨[], some fault⟩, [])

/-- The text with one more piece before it. -/
def cons (piece : Piece) (rest : Quoted × List Char) : Quoted × List Char :=
  (⟨piece :: rest.1.pieces, rest.1.fault⟩, rest.2)

/-- Reads a quoted text after its opening quote, and gives what follows its closing quote. -/
def read : List Char → Quoted × List Char
  | [] => broken .truncated
  | '"' :: rest => (⟨[], none⟩, rest)
  | '\\' :: 'u' :: a :: b :: c :: d :: rest =>
    match codeUnit? a b c d with
    | some code => cons (.unit code) (read rest)
    | none => broken .malformed
  | '\\' :: 'u' :: rest => broken (shortEscape rest)
  | '\\' :: letter :: rest =>
    match escaped? letter with
    | some c => cons (.char c) (read rest)
    | none => broken .malformed
  | ['\\'] => broken .truncated
  | c :: rest => if c.toNat < 0x20 then broken .malformed else cons (.char c) (read rest)

/-- Reading a quoted text uses up none of what was not there. -/
theorem length_read_le (text : List Char) : (read text).2.length ≤ text.length := by
  fun_induction read text <;> simp_all [broken, cons] <;> omega

end Quoted

/-! ## §2. The text meant -/

/-- Whether a code unit is the first half of a surrogate pair. -/
def isLead (code : Nat) : Bool := 0xD800 ≤ code && code ≤ 0xDBFF

/-- Whether a code unit is the second half of a surrogate pair. -/
def isTrail (code : Nat) : Bool := 0xDC00 ≤ code && code ≤ 0xDFFF

/-- The character that a surrogate pair stands for. -/
def pairChar (lead trail : Nat) : Char :=
  Char.ofNat (0x10000 + 1024 * (lead - 0xD800) + (trail - 0xDC00))

/-- The characters of a list of pieces that was stopped by the given fault, or its first fault. -/
def joinPieces (fault : Option JsonFault) : List Piece → Except JsonFault (List Char)
  | [] => match fault with
    | none => .ok []
    | some fault => .error fault
  | .char c :: rest => (joinPieces fault rest).map (c :: ·)
  | .unit code :: rest =>
    if isTrail code then .error .malformed
    else if isLead code then
      match rest with
      | .unit trail :: rest =>
        if isTrail trail then (joinPieces fault rest).map (pairChar code trail :: ·)
        else .error .malformed
      | .char _ :: _ => .error .malformed
      | [] => .error (fault.getD .malformed)
    else (joinPieces fault rest).map (Char.ofNat code :: ·)

/-- The text that a quoted text means, or its first fault. -/
def Quoted.text (q : Quoted) : Except JsonFault String :=
  (joinPieces q.fault q.pieces).map String.ofList

/-! ## §3. Writing -/

/-- A hexadecimal digit. -/
def hexDigit (n : Nat) : Char := Nat.digitChar n

/-- A character as it is written inside quotes. -/
def writeChar (c : Char) : List Char :=
  match c with
  | '"' => ['\\', '"']
  | '\\' => ['\\', '\\']
  | '\x08' => ['\\', 'b']
  | '\x0C' => ['\\', 'f']
  | '\n' => ['\\', 'n']
  | '\r' => ['\\', 'r']
  | '\t' => ['\\', 't']
  | c =>
    if c.toNat < 0x20 then
      ['\\', 'u', '0', '0', hexDigit (c.toNat / 16), hexDigit (c.toNat % 16)]
    else [c]

/-- A text as it is written, with its quotes. -/
def writeText (text : String) : List Char := '"' :: (text.toList.flatMap writeChar ++ ['"'])

end CsvQuery.Json

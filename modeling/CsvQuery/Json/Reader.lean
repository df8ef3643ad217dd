/-
  CsvQuery.Json.Reader — reading values from tokens.

  A reader takes tokens from the front and stops at the first fault.  Where the document may go on in
  one way only, any other token is malformed and a missing one is truncated.  Where a value is wanted,
  a well-formed beginning of a value of another kind is mismatched, and a broken token has its own
  fault.  A value that nobody wants is passed over by its grammar alone: its texts need no paired
  surrogates and its numbers no range.
-/
import CsvQuery.Json.Token

namespace CsvQuery.Json

/-! ## §1. Readers -/

/-- Reads a value from the front of a list of tokens. -/
abbrev Reader := StateT (List Token) (Except JsonFault)

namespace Reader

/-- Takes the next token. -/
def next : Reader Token := fun tokens =>
  match tokens with
  | [] => .error .truncated
  | token :: rest => .ok (token, rest)

/-- Takes the next token if it is the given one. -/
def expect (token : Token) : Reader Unit := do
  if (← next) = token then return () else throw .malformed

/-- Whether the next token is the given one; it is not taken. -/
def sees (token : Token) : Reader Bool := fun tokens => .ok (tokens.head? = some token, tokens)

/-- Checks that no tokens are left. -/
def finish : Reader Unit := fun tokens =>
  match tokens with
  | [] => .ok ((), [])
  | _ :: _ => .error .malformed

end Reader

/-! ## §2. Values -/

/-- The fault of a token that stands where a value of another kind is wanted. -/
def Token.mismatch : Token → JsonFault
  | .null | .bool | .openArray | .openObject => .mismatched
  | .text content =>
    match content.text with
    | .ok _ => .mismatched
    | .error fault => fault
  | .number n => if n.outOfRange then .malformed else .mismatched
  | .brokenNumber atEnd => if atEnd then .truncated else .malformed
  | .broken fault => fault
  | .closeObject | .closeArray | .colon | .comma => .malformed

namespace Reader

/-- Reads a text. -/
def text : Reader String := do
  match ← next with
  | .text content => MonadExcept.ofExcept content.text
  | token => throw token.mismatch

/-- Reads an unsigned word of 64 bits. -/
def word : Reader UInt64 := do
  match ← next with
  | .number n =>
    match n.word? with
    | some word => return word
    | none => throw (Token.number n).mismatch
  | token => throw token.mismatch

/-- Reads a null. -/
def null : Reader Unit := do
  match ← next with
  | .null => return ()
  | token => throw token.mismatch

/-- Reads the key of a member. -/
def key : Reader String := do
  match ← next with
  | .text content => MonadExcept.ofExcept content.text
  | _ => throw .malformed

end Reader

/-! ## §3. Values that nobody wants -/

/-- What is open around a value. -/
inductive Bracket where
  | array
  | object
  deriving DecidableEq

/-- What has to come next inside a value. -/
inductive Want where
  | value
  /-- A value, or the end of the array that has just been opened. -/
  | firstValue
  | key
  /-- A key, or the end of the object that has just been opened. -/
  | firstKey
  | colon
  /-- A comma, or the end of the innermost array or object. -/
  | more
  deriving DecidableEq

/-- Where a value that is passed over stands: what is open, innermost first, and what comes next. -/
structure Passage where
  opened : List Bracket
  want : Want

namespace Passage

/-- Goes on after a text, if it was closed. -/
def afterText (content : Quoted) (next : Passage) : Except JsonFault Passage :=
  match content.fault with
  | none => .ok next
  | some fault => .error fault

/-- Passes over a token that opens a value. -/
def stepValue (opened : List Bracket) : Token → Except JsonFault Passage
  | .openArray => .ok ⟨.array :: opened, .firstValue⟩
  | .openObject => .ok ⟨.object :: opened, .firstKey⟩
  | .text content => afterText content ⟨opened, .more⟩
  | .null | .bool | .number _ => .ok ⟨opened, .more⟩
  | .broken fault => .error fault
  | .brokenNumber _ | .closeObject | .closeArray | .colon | .comma => .error .malformed

/-- Passes over a key. -/
def stepKey (opened : List Bracket) : Token → Except JsonFault Passage
  | .text content => afterText content ⟨opened, .colon⟩
  | _ => .error .malformed

/-- Passes over one token. -/
def step (p : Passage) (token : Token) : Except JsonFault Passage :=
  match p.want with
  | .value => stepValue p.opened token
  | .firstValue =>
    if token = .closeArray then .ok ⟨p.opened.tail, .more⟩ else stepValue p.opened token
  | .key => stepKey p.opened token
  | .firstKey =>
    if token = .closeObject then .ok ⟨p.opened.tail, .more⟩ else stepKey p.opened token
  | .colon => if token = .colon then .ok ⟨p.opened, .value⟩ else .error .malformed
  | .more =>
    match p.opened, token with
    | .array :: opened, .comma => .ok ⟨.array :: opened, .value⟩
    | .object :: opened, .comma => .ok ⟨.object :: opened, .key⟩
    | .array :: opened, .closeArray => .ok ⟨opened, .more⟩
    | .object :: opened, .closeObject => .ok ⟨opened, .more⟩
    | _, _ => .error .malformed

/-- Whether the value is complete. -/
def isDone (p : Passage) : Bool := p.opened.isEmpty && p.want = .more

/-- Passes over the rest of a value, and gives the tokens after it. -/
def skip (p : Passage) : List Token → Except JsonFault (List Token)
  | [] => if p.isDone then .ok [] else .error .truncated
  | token :: rest =>
    if p.isDone then .ok (token :: rest)
    else
      match p.step token with
      | .ok next => next.skip rest
      | .error fault => .error fault

end Passage

/-- Reads a value of any kind and forgets it. -/
def Reader.ignore : Reader Unit := fun tokens =>
  ((⟨[], .value⟩ : Passage).skip tokens).map fun rest => ((), rest)

end CsvQuery.Json

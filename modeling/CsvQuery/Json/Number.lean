/-
  CsvQuery.Json.Number — the numbers of a JSON document.

  A number keeps its parts as they are written.  Read as an unsigned word it has neither a sign nor a
  fraction nor an exponent.  Every number has to be within the range of binary64, also where a value
  of another kind is wanted: its leading digits, as many as fit a word of 64 bits, times a power of
  ten must not overflow, both factors being rounded first.
-/
import CsvQuery.Number.Decimal

namespace CsvQuery.Json

/-- A well-formed number, part by part. -/
structure Number where
  negative : Bool
  /-- The digits before the point. -/
  whole : List Char
  /-- The digits after the point, empty if there is no point. -/
  fraction : List Char
  /-- The number after the exponent letter, if there is one. -/
  exponent : Option Int
  deriving DecidableEq

namespace Number

/-- The bound of the words of 64 bits. -/
def wordBound : Nat := UInt64.size

/-- The word that the number denotes if it is written as one. -/
def word? (n : Number) : Option UInt64 :=
  if n.negative || !n.fraction.isEmpty || n.exponent.isSome then none
  else if digitsValue n.whole < wordBound then some (UInt64.ofNat (digitsValue n.whole))
  else none

/-! ## The range -/

/-- A word with one more digit, if it still is a word. -/
def extend? (word : Nat) (digit : Char) : Option Nat :=
  let next := word * 10 + (digit.toNat - '0'.toNat)
  if next < wordBound then some next else none

/-- As many leading digits as fit a word, and how many whole digits are left over. -/
def leadingWhole (word : Nat) : List Char → Nat × Nat
  | [] => (word, 0)
  | digit :: rest =>
    match extend? word digit with
    | some next => leadingWhole next rest
    | none => (word, rest.length + 1)

/-- A word with as many fraction digits as still fit it, and how many these are. -/
def leadingFraction (word : Nat) : List Char → Nat × Nat
  | [] => (word, 0)
  | digit :: rest =>
    match extend? word digit with
    | some next => ((leadingFraction next rest).1, (leadingFraction next rest).2 + 1)
    | none => (word, 0)

/-- The leading digits as a word, and the power of ten that they count. -/
def leading (n : Number) : Nat × Int :=
  let (word, dropped) := leadingWhole 0 n.whole
  let (word, added) := leadingFraction word n.fraction
  (word, (dropped : Int) - added + n.exponent.getD 0)

/-- Whether a word times `10 ^ k` overflows binary64 when both are rounded before and after. -/
def productOverflows (word k : Nat) : Bool :=
  match Magnitude.nearest? word 1, Magnitude.nearest? (Nat.pow 10 k) 1 with
  | some x, some y =>
    (Magnitude.nearest? (x.units * y.units)
      (Magnitude.unitsPerOne * Magnitude.unitsPerOne)).isNone
  | _, _ => true

/-- Whether the number is past the range of binary64. -/
def outOfRange (n : Number) : Bool :=
  match n.leading with
  | (word, .ofNat k) => word != 0 && (308 < k || productOverflows word k)
  | (_, .negSucc _) => false

end Number

end CsvQuery.Json

/-
  CsvQuery.Number.Digits — integers in decimal notation.

  Reading takes an optional sign and then ASCII digits only; writing puts a minus before a negative
  number and no leading zeros.
-/
import CsvQuery.Number.Binary64

namespace CsvQuery

/-- An optional leading sign, and what follows it. -/
def splitSign : List Char → Bool × List Char
  | '-' :: rest => (true, rest)
  | '+' :: rest => (false, rest)
  | text => (false, text)

/-- The number that a list of decimal digits denotes. -/
def digitsValue (digits : List Char) : Nat := Nat.ofDigitChars 10 digits 0

/-- The integer that the text denotes: an optional sign, then one digit or more and nothing else. -/
def integer? (text : List Char) : Option Int :=
  let (negative, digits) := splitSign text
  if digits.isEmpty || !digits.all Char.isDigit then none
  else some (signed negative (digitsValue digits))

/-- The decimal text of an integer. -/
def decimalText : Int → List Char
  | .ofNat n => Nat.toDigits 10 n
  | .negSucc n => '-' :: Nat.toDigits 10 (n + 1)

end CsvQuery

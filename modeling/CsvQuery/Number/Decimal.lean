/-
  CsvQuery.Number.Decimal — decimal numbers: their nearest binary64 and their positional text.

  A decimal is a coefficient times a power of ten.  Reading a numeral gives a sign and a decimal;
  `Decimal.nearest?` rounds it correctly, with no limit on digits or exponent: a power of ten far
  outside the binary64 range is settled by the size of the numbers alone and never built.
-/
import CsvQuery.Number.Digits
import CsvQuery.Number.Rounding

namespace CsvQuery

/-! ## §1. Decimals -/

/-- The number `coefficient * 10 ^ place`. -/
structure Decimal where
  coefficient : Nat
  place : Int
  deriving DecidableEq

namespace Decimal

/--
The magnitude nearest to the decimal, or `none` where it is past the greatest finite one.

With `b` the number of bits of the coefficient less one, the value is at least `2 ^ (b + 3 * k)` for
a place `k ≥ 0`, and below `2 ^ (b + 1 - 3 * k)` for a place `-k < 0`; past `2 ^ 1024` nothing is
finite and below `2 ^ -1075` all rounds to zero.
-/
def nearest? (d : Decimal) : Option Magnitude :=
  if d.coefficient = 0 then some .zero
  else
    match d.place with
    | .ofNat k =>
      if 1024 ≤ d.coefficient.log2 + 3 * k then none
      else Magnitude.nearest? (d.coefficient * Nat.pow 10 k) 1
    | .negSucc k =>
      if d.coefficient.log2 + 1076 ≤ 3 * (k + 1) then some .zero
      else Magnitude.nearest? d.coefficient (Nat.pow 10 (k + 1))

/-- The decimal written without an exponent, with a digit before the point if there is a point. -/
def positional (d : Decimal) : List Char :=
  let digits := Nat.toDigits 10 d.coefficient
  match d.place with
  | .ofNat k => digits ++ List.replicate k '0'
  | .negSucc k =>
    let padded := List.replicate (k + 2 - digits.length) '0' ++ digits
    let whole := padded.length - (k + 1)
    padded.take whole ++ '.' :: padded.drop whole

end Decimal

/-! ## §2. Numerals -/

/-- A decimal numeral as it is written. -/
structure Numeral where
  negative : Bool
  /-- The digits before the point. -/
  whole : List Char
  /-- The digits after the point. -/
  fraction : List Char
  exponent : Int

namespace Numeral

/-- The decimal that the numeral denotes, its sign left aside. -/
def decimal (n : Numeral) : Decimal :=
  ⟨digitsValue (n.whole ++ n.fraction), n.exponent - n.fraction.length⟩

/-- The number nearest to the numeral, unless it overflows. -/
def nearest? (n : Numeral) : Option Binary64 :=
  n.decimal.nearest?.map (.finite n.negative)

/-- The exponent that ends a numeral: nothing, or a letter `e` of either case and an integer. -/
def exponent? : List Char → Option Int
  | [] => some 0
  | 'e' :: rest => integer? rest
  | 'E' :: rest => integer? rest
  | _ => none

/-- The fraction after the whole digits, if a point opens it, and what follows. -/
def splitFraction : List Char → List Char × List Char
  | '.' :: rest => (rest.takeWhile Char.isDigit, rest.dropWhile Char.isDigit)
  | text => ([], text)

/--
Reads a numeral that takes up the whole text: an optional sign, digits with an optional point, at
least one digit before or after it, and an optional exponent.
-/
def ofText? (text : List Char) : Option Numeral :=
  let (negative, unsigned) := splitSign text
  let whole := unsigned.takeWhile Char.isDigit
  let (fraction, rest) := splitFraction (unsigned.dropWhile Char.isDigit)
  if whole.isEmpty && fraction.isEmpty then none
  else (exponent? rest).map fun exponent => ⟨negative, whole, fraction, exponent⟩

end Numeral

end CsvQuery

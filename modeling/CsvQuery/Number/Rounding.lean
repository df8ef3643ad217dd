/-
  CsvQuery.Number.Rounding — the binary64 magnitude nearest to a quotient.

  A quotient is brought to units of `2 ^ -1074`, cut to 53 significant bits and rounded once, half
  to even.  Because the word of a magnitude is `exponent * 2 ^ 52 + significand`, a significand
  that rounds up to `2 ^ 53` carries into the exponent by plain addition.
-/
import CsvQuery.Number.Binary64

namespace CsvQuery

/-- The natural number nearest to `num / den`; a half goes to the even neighbour. -/
def roundHalfEven (num den : Nat) : Nat :=
  let low := num / den
  let twice := 2 * (num % den)
  if twice < den then low
  else if den < twice then low + 1
  else low + low % 2

namespace Magnitude

/-- The magnitude nearest to `num / den`, or `none` where that is past the greatest finite one. -/
def nearest? (num den : Nat) : Option Magnitude :=
  let scaled := num * unitsPerOne
  let exponent := (scaled / den).log2 - 52
  let word := exponent <<< 52 + roundHalfEven scaled (den <<< exponent)
  if h : word < 2047 <<< 52 then some ⟨word, h⟩ else none

end Magnitude

end CsvQuery

/-
  CsvQuery.Number.Shortest — the fewest digits that read back as a binary64 magnitude.

  At each decimal place the value lies between two neighbours on the grid of that place.  The search
  walks from a place above the leading digit towards finer ones and stops at the first place where a
  neighbour reads back as the very magnitude it started from: fewer digits would not read back.  Of
  two neighbours that both read back the nearer one is taken, and of two equally near ones the
  greater.  At the place of `2 ^ -1074` every magnitude lies on the grid, so the search ends.
-/
import CsvQuery.Number.Decimal

namespace CsvQuery

namespace Magnitude

/-- The magnitude over `10 ^ place`, as a numerator and a denominator. -/
def scaledTo (x : Magnitude) : Int → Nat × Nat
  | .ofNat k => (x.units, unitsPerOne * Nat.pow 10 k)
  | .negSucc k => (x.units * Nat.pow 10 (k + 1), unitsPerOne)

/-- A neighbour of the magnitude on the grid of a decimal place that reads back as it. -/
def neighbour? (x : Magnitude) (place : Int) : Option Decimal :=
  let (num, den) := x.scaledTo place
  let below : Decimal := ⟨num / den, place⟩
  let above : Decimal := ⟨num / den + 1, place⟩
  if below.nearest? = some x then
    if above.nearest? = some x ∧ den ≤ 2 * (num % den) then some above else some below
  else if above.nearest? = some x then some above
  else none

/-- A decimal place no finer than that of the leading digit. -/
def leadingPlace (x : Magnitude) : Int := ((x.units.log2 : Int) - 1073) * 30103 / 100000 + 2

/-- The shortest decimal that reads back as the magnitude. -/
def shortest (x : Magnitude) : Decimal :=
  search (x.leadingPlace + 1074).toNat x.leadingPlace
where
  /-- Tries the given place and as many finer ones as the first argument says. -/
  search : Nat → Int → Decimal
    | 0, place => ⟨(x.scaledTo place).1 / (x.scaledTo place).2, place⟩
    | steps + 1, place => (x.neighbour? place).getD (search steps (place - 1))

end Magnitude

end CsvQuery

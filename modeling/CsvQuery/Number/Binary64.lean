/-
  CsvQuery.Number.Binary64 — binary64 numbers as exact values.

  A finite magnitude is one word below `2047 * 2 ^ 52`: the binary exponent above 52 bits of
  fraction.  Read as `significand * 2 ^ exponent`, it counts units of `2 ^ -1074`, the least
  positive magnitude, so every finite number is a whole number of units and two numbers compare
  as integers.  Words grow with the magnitudes they denote, and the word after the greatest
  finite one is the infinity's.

  What this module holds:
    • `Magnitude`, with `exponent`, `significand`, `units` and the integer it equals, if any
    • `Binary64`, a signed magnitude, a signed infinity or not a number
    • `Binary64.ofWord` and `Binary64.toWord`, the 64-bit interchange form
-/
namespace CsvQuery

/-! ## §1. Magnitudes -/

/-- A finite binary64 magnitude, named by the word that encodes it. -/
structure Magnitude where
  /-- The exponent field above 52 bits of fraction. -/
  word : Nat
  /-- The words from here on stand for no finite number. -/
  word_lt : word < 2047 <<< 52
  deriving DecidableEq

namespace Magnitude

/-- The magnitude of zero. -/
def zero : Magnitude := ⟨0, by decide⟩

/-- The power of two that scales the significand; the subnormal words share the least one. -/
def exponent (x : Magnitude) : Nat := (x.word >>> 52) - 1

/-- The 53-bit significand; only the subnormal words have one below `2 ^ 52`. -/
def significand (x : Magnitude) : Nat := x.word - (x.exponent <<< 52)

/-- The magnitude in units of `2 ^ -1074`. -/
def units (x : Magnitude) : Nat := x.significand <<< x.exponent

/-- The number of units in one. -/
def unitsPerOne : Nat := 1 <<< 1074

/-- The natural number that the magnitude equals, if it is whole. -/
def whole? (x : Magnitude) : Option Nat :=
  if x.units % unitsPerOne = 0 then some (x.units / unitsPerOne) else none

end Magnitude

/-! ## §2. Signed numbers -/

/-- A binary64 number.  All values that are not a number count as one. -/
inductive Binary64 where
  | finite (negative : Bool) (magnitude : Magnitude)
  | infinite (negative : Bool)
  | nan
  deriving DecidableEq

/-- `n`, or `-n` when the sign is negative. -/
def signed (negative : Bool) (n : Nat) : Int := if negative then -(n : Int) else n

namespace Binary64

/-- The integer that the number equals, if it is a whole finite number. -/
def whole? : Binary64 → Option Int
  | .finite negative x => x.whole?.map (signed negative)
  | .infinite _ => none
  | .nan => none

/-- The 64-bit word of the number: the sign above 63 bits of magnitude. -/
def toWord : Binary64 → Nat
  | .finite negative x => (if negative then 1 <<< 63 else 0) + x.word
  | .infinite negative => (if negative then 1 <<< 63 else 0) + 2047 <<< 52
  | .nan => 2047 <<< 52 + 1 <<< 51

/-- The number that a 64-bit word stands for. -/
def ofWord (word : Nat) : Binary64 :=
  let negative := 1 <<< 63 ≤ word
  let rest := word % (1 <<< 63)
  if h : rest < 2047 <<< 52 then .finite negative ⟨rest, h⟩
  else if rest = 2047 <<< 52 then .infinite negative
  else .nan

end Binary64

end CsvQuery

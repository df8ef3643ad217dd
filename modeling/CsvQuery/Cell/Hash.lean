/-
  CsvQuery.Cell.Hash — the bytes that hashing a cell feeds, kind by kind.

  A binary64 number is hashed as an integer of 64 bits where it has no fraction and lies between the
  bounds of these integers; then its whole part is that integer.  Every other number is hashed by its
  word, except that all that is not a number is hashed alike.
-/
import CsvQuery.Cell.Compare

namespace CsvQuery

/-! ## §1. Exact integers -/

namespace Binary64

/-- What the number is beyond its whole part, in units of `2 ^ -1074`; infinities have no such part. -/
def fraction? : Binary64 → Option Int
  | .finite negative x => some (signed negative (x.units % Magnitude.unitsPerOne))
  | .infinite _ => none
  | .nan => none

/-- The whole part of the number as an integer of 64 bits, cut to the least or the greatest one where it
is beyond them. -/
def truncated : Binary64 → Int64
  | .finite negative x => .ofIntClamp (signed negative (x.units / Magnitude.unitsPerOne))
  | .infinite true => Int64.minValue
  | .infinite false => Int64.maxValue
  | .nan => 0

/-- Whether the number is at least `-2 ^ 63` and less than `2 ^ 63`. -/
def isWithinInt64 (x : Binary64) : Bool :=
  (x.compare? (.int64Bound true)).any Ordering.isGE && x.compare? (.int64Bound false) == some .lt

/-- The integer of 64 bits that the number is exactly, if there is one. -/
def exactInt64? (x : Binary64) : Option Int64 :=
  if x.fraction? = some 0 ∧ x.isWithinInt64 = true then some x.truncated else none

end Binary64

/-! ## §2. Cells -/

namespace Cell

/-- The bytes that hashing a cell feeds: a tag for what the cell holds, and what it holds. -/
def hashBytes : Cell → List UInt8
  | absent => [0]
  | int i => 1 :: littleEndian 8 i.toUInt64.toNat
  | float x =>
    match x.exactInt64? with
    | some i => 1 :: littleEndian 8 i.toUInt64.toNat
    | none => if x.isNan then [2] else 3 :: littleEndian 8 x.toWord
  | text s => 4 :: (utf8 s ++ [0xFF])

end Cell

end CsvQuery

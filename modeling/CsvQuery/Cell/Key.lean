/-
  CsvQuery.Cell.Key — the bytes under which equal cells meet.

  A key opens with a tag for the kind of value.  A whole number of either form, within 64 bits, is
  keyed by its integer, so `2` and `2.0` meet and both zeros do; every other number by its word; and
  a text by its bytes, closed by a byte that UTF-8 never uses.
-/
import CsvQuery.Cell.Order

namespace CsvQuery

/-- The lowest `count` bytes of a word, the least significant one first. -/
def littleEndian : (count : Nat) → (word : Nat) → List UInt8
  | 0, _ => []
  | count + 1, word => UInt8.ofNat (word % 256) :: littleEndian count (word / 256)

/-- The integer of 64 bits that equals the number, if there is one. -/
def Binary64.int64? (x : Binary64) : Option Int64 := x.whole?.bind int64OfInt?

namespace Cell

/-- The key of an integer. -/
def intKey (i : Int64) : List UInt8 := 1 :: littleEndian 8 i.toUInt64.toNat

/-- The key of a cell. -/
def key : Cell → List UInt8
  | absent => [0]
  | int i => intKey i
  | float x =>
    match x.int64? with
    | some i => intKey i
    | none => if x = .nan then [2] else 3 :: littleEndian 8 x.toWord
  | text s => 4 :: (utf8 s ++ [0xFF])

end Cell

end CsvQuery

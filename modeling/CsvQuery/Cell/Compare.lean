/-
  CsvQuery.Cell.Compare — comparing cells kind by kind.

  Every pair of kinds is compared in its own way.  Two binary64 numbers compare as words with a sign,
  and not-a-number stands above them.  An integer and a binary64 number compare as integers where that
  number is a whole one of 64 bits; out of that range the number alone decides; and a number with a
  fraction is compared with the integer rounded to binary64.
-/
import CsvQuery.Cell.Key
import CsvQuery.Number.Rounding

namespace CsvQuery

/-! ## §1. Two binary64 numbers -/

namespace Binary64

/-- Whether the number is not a number. -/
def isNan (x : Binary64) : Bool := decide (x = .nan)

/-- The word of the number as an integer with its sign.  Both zeros have the same, and not-a-number has
none. -/
def ordinal? : Binary64 → Option Int
  | .finite negative x => some (signed negative x.word)
  | .infinite negative => some (signed negative (2047 <<< 52))
  | .nan => none

/-- How two numbers compare, where neither is not-a-number. -/
def compare? (x y : Binary64) : Option Ordering :=
  match x.ordinal?, y.ordinal? with
  | some m, some n => some (compare m n)
  | _, _ => none

/-- How any two numbers compare: not-a-number is above all others and equal to itself. -/
def compareAny (x y : Binary64) : Ordering := (x.compare? y).getD (compare x.isNan y.isNan)

/-! ## §2. An integer and a binary64 number -/

/-- The number with a rounded magnitude, which is infinite where no finite one is nearest. -/
def ofRounded (negative : Bool) : Option Magnitude → Binary64
  | some x => .finite negative x
  | none => .infinite negative

/-- The binary64 number nearest to an integer. -/
def ofInt (n : Int) : Binary64 := ofRounded (n < 0) (Magnitude.nearest? n.natAbs 1)

end Binary64

/-- The magnitude `2 ^ 63`. -/
def Magnitude.int64Bound : Magnitude := ⟨1086 <<< 52, by decide⟩

/-- The number `2 ^ 63`, where the integers of 64 bits end, or its negative, where they begin. -/
def Binary64.int64Bound (negative : Bool) : Binary64 := .finite negative .int64Bound

namespace Cell

/-- How an integer compares with a binary64 number. -/
def compareIntFloat (i : Int64) (x : Binary64) : Ordering :=
  if x.isNan then .lt
  else
    match x.int64? with
    | some j => compare i j
    | none =>
      if (x.compare? (.int64Bound false)).any Ordering.isGE then .lt
      else if x.compare? (.int64Bound true) = some .lt then .gt
      else ((Binary64.ofInt i.toInt).compare? x).getD .lt

/-! ## §3. Two cells -/

/-- The place of a cell's kind: absent cells, numbers, texts. -/
def kind : Cell → Nat
  | absent => 0
  | int _ => 1
  | float _ => 1
  | text _ => 2

/-- How two cells compare: those of one kind by their values, others by their kinds. -/
def compareKinds : Cell → Cell → Ordering
  | absent, absent => .eq
  | int i, int j => compare i j
  | float x, float y => x.compareAny y
  | int i, float x => compareIntFloat i x
  | float x, int i => (compareIntFloat i x).swap
  | text s, text t => compare (utf8 s) (utf8 t)
  | a, b => compare a.kind b.kind

end Cell

end CsvQuery

/-
  CsvQuery.Cell.Screen — reading numbers after a look at the bytes.

  A text is handed to a reader of numbers only if its bytes may be those of a number.  For an integer,
  what follows an optional sign has to be digits, one at least.  For a binary64 number there has to be a
  digit, and nothing but digits, signs, points and letters `e`.  The reader of binary64 numbers knows names
  for those without digits and gives an infinity for a numeral that is too great; of what it reads, only the
  finite numbers are kept.

  The screen is there for the two readers, which take more texts than a field may hold numbers in.  It says
  step by step how a field comes to its cell; `Cell.infer` says which texts are numbers and has no need of
  a screen.  Both give every text the same cell.
-/
import CsvQuery.Cell.Compare
import CsvQuery.Cell.Infer
import CsvQuery.Text.Case
import CsvQuery.Text.Utf8

namespace CsvQuery

/-! ## §1. Bytes -/

/-- Whether a byte is a digit. -/
def isDigitByte (b : UInt8) : Bool := 0x30 ≤ b && b ≤ 0x39

/-- Whether a byte may stand in a numeral: a digit, a sign, a point or a letter `e` of either case. -/
def isNumeralByte (b : UInt8) : Bool :=
  isDigitByte b || b = 0x2B || b = 0x2D || b = 0x2E || b = 0x65 || b = 0x45

/-! ## §2. Binary64 numbers -/

namespace Binary64

/-- The number that is named, in any letter case. -/
def ofName? (negative : Bool) (name : List Char) : Option Binary64 :=
  match asciiLower name with
  | ['i', 'n', 'f'] => some (.infinite negative)
  | ['i', 'n', 'f', 'i', 'n', 'i', 't', 'y'] => some (.infinite negative)
  | ['n', 'a', 'n'] => some .nan
  | _ => none

/-- Reads a number: a name after an optional sign, or else a numeral, which is rounded. -/
def ofText? (text : List Char) : Option Binary64 :=
  let (negative, name) := splitSign text
  match ofName? negative name with
  | some x => some x
  | none => (Numeral.ofText? text).map fun n => ofRounded n.negative n.decimal.nearest?

/-- Whether the number is a finite one. -/
def isFinite : Binary64 → Bool
  | .finite _ _ => true
  | .infinite _ => false
  | .nan => false

end Binary64

/-! ## §3. Cells -/

namespace Cell

/-- The integer that a text stands for, if all bytes after its sign are digits. -/
def screenedInteger? (raw : String) : Option Int64 :=
  let digits := utf8 (String.ofList (splitSign raw.toList).2)
  if digits.isEmpty || !digits.all isDigitByte then none else int64OfText? raw.toList

/-- The finite number that a text stands for, if its bytes are those of numerals. -/
def screenedFloat? (raw : String) : Option Binary64 :=
  let bytes := utf8 raw
  if !bytes.any isDigitByte || !bytes.all isNumeralByte then none
  else (Binary64.ofText? raw.toList).filter Binary64.isFinite

/-- The cell that a text stands for, its bytes looked at first. -/
def inferScreened (raw : String) : Cell :=
  match screenedInteger? raw with
  | some i => int i
  | none =>
    match screenedFloat? raw with
    | some x => float x
    | none => text raw

end Cell

end CsvQuery

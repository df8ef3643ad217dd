/-
  CsvQuery.Text.Mark — marks on characters, and what a backspace erases.

  A mark is a character that is shown on the one before it.  In a line that was typed, a backspace
  erases the character before it with all its marks, and leaves nothing of itself.
-/
namespace CsvQuery

/-- The Unicode blocks of combining diacritical marks, of their half marks and of variation selectors,
as inclusive ranges. -/
def markRanges : List (Nat × Nat) :=
  [(0x0300, 0x036F), (0x1AB0, 0x1AFF), (0x1DC0, 0x1DFF), (0x20D0, 0x20FF), (0xFE00, 0xFE0F),
   (0xFE20, 0xFE2F)]

/-- A character is a mark when its block holds marks on other characters. -/
def isMark (c : Char) : Bool := markRanges.any fun (low, high) => low ≤ c.toNat && c.toNat ≤ high

/-- What has been typed, last character first, after one more key. -/
def typed (before : List Char) (key : Char) : List Char :=
  if key = '\x08' then (before.dropWhile isMark).tail else key :: before

/-- A line as its backspaces leave it. -/
def applyBackspaces (line : List Char) : List Char := (line.foldl typed []).reverse

end CsvQuery

/-
  CsvQuery.Text.Blank — white space and control characters.

  A character is blank when it has the Unicode property White_Space, and control when it is one of
  the C0 and C1 codes or the delete character.  Words are the longest runs of characters that are
  not blank.
-/
namespace CsvQuery

/-- The code points with the Unicode property White_Space, as inclusive ranges. -/
def blankRanges : List (Nat × Nat) :=
  [(0x09, 0x0D), (0x20, 0x20), (0x85, 0x85), (0xA0, 0xA0), (0x1680, 0x1680), (0x2000, 0x200A),
   (0x2028, 0x2029), (0x202F, 0x202F), (0x205F, 0x205F), (0x3000, 0x3000)]

/-- A character is blank when it has the Unicode property White_Space. -/
def isBlank (c : Char) : Bool := blankRanges.any fun (low, high) => low ≤ c.toNat && c.toNat ≤ high

/-- A character is a control character when it is a C0 code, the delete character or a C1 code. -/
def isControl (c : Char) : Bool := c.toNat < 0x20 || (0x7F ≤ c.toNat && c.toNat ≤ 0x9F)

/-- The words of a text: its longest runs of characters that are not blank, in order. -/
def words (text : List Char) : List (List Char) :=
  (text.splitOnP isBlank).filter fun word => !word.isEmpty

/-- The text without blank characters at its end. -/
def trimEnd (text : List Char) : List Char := (text.reverse.dropWhile isBlank).reverse

/-- The text without blank characters at its start and at its end. -/
def trim (text : List Char) : List Char := trimEnd (text.dropWhile isBlank)

end CsvQuery

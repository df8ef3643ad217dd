/-
  CsvQuery.Text.Case — letter case.

  Three folds are needed: ASCII letters up and ASCII letters down, which leave all else alone, and
  the Unicode lower-casing of a text that is compared with ASCII words.  For the last one, only two
  kinds of character matter: the ASCII capitals and the Kelvin sign, whose small letter is `k`; every
  other character has no ASCII letter as its small form.
-/
namespace CsvQuery

/-- The ASCII capitals made small, all else unchanged. -/
def asciiLower (text : List Char) : List Char := text.map Char.toLower

/-- The ASCII small letters made capital, all else unchanged. -/
def asciiUpper (text : List Char) : List Char := text.map Char.toUpper

/-- The small letter of a character, as far as it is an ASCII letter. -/
def smallLetter (c : Char) : Char := if c = '\u212A' then 'k' else c.toLower

/-- Whether the text is the given ASCII word, in any letter case. -/
def spells (word : List Char) (text : List Char) : Bool := text.map smallLetter == word

end CsvQuery

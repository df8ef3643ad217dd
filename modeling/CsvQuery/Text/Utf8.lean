/-
  CsvQuery.Text.Utf8 — texts as UTF-8 bytes.

  The bytes of a text order it, key it and measure it; reading bytes back is refused where they are
  not well-formed UTF-8.
-/
namespace CsvQuery

/-- The UTF-8 bytes of a text. -/
def utf8 (text : String) : List UInt8 := text.toByteArray.data.toList

/-- The text that the bytes encode, if they are well-formed UTF-8. -/
def ofUtf8? (bytes : List UInt8) : Option String := String.fromUTF8? ⟨bytes.toArray⟩

/-- The longest start of the text that takes no more than `limit` bytes. -/
def takeBytes : Nat → List Char → List Char
  | _, [] => []
  | limit, c :: rest => if c.utf8Size ≤ limit then c :: takeBytes (limit - c.utf8Size) rest else []

end CsvQuery

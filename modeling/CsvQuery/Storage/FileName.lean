/-
  CsvQuery.Storage.FileName — reducing a requested name to one safe file name.

  White space is brought to single spaces, control characters and the characters with a meaning in
  paths are removed, and the ends are trimmed.  What is then empty or the name of a device becomes a
  fallback name, and what starts with a point gets the fallback name put before it, so that no name
  leads out of its directory.  At last the name is cut to the greatest length of a file name.
-/
import CsvQuery.Text.Blank
import CsvQuery.Text.Case
import CsvQuery.Text.Utf8

namespace CsvQuery.FileName

/-- The name that stands in for an unusable one. -/
def fallback : List Char := ['f', 'i', 'l', 'e']

/-- The greatest number of bytes of a file name. -/
def maxBytes : Nat := 255

/-- The characters with a meaning in paths. -/
def pathChars : List Char := ['/', '\\', ':', '*', '?', '"', '<', '>', '|']

/-- Whether a character may stand in a file name. -/
def isSafe (c : Char) : Bool := !isControl c && !pathChars.contains c

/-- The digits that number the devices of one kind. -/
def deviceDigits : List Char := ['1', '2', '3', '4', '5', '6', '7', '8', '9']

/-- The names of devices, in capitals. -/
def deviceNames : List (List Char) :=
  [['C', 'O', 'N'], ['P', 'R', 'N'], ['A', 'U', 'X'], ['N', 'U', 'L']]
    ++ deviceDigits.map (fun digit => ['C', 'O', 'M', digit])
    ++ deviceDigits.map (fun digit => ['L', 'P', 'T', digit])

/-- Whether a name is that of a device, in any ASCII letter case. -/
def isDevice (name : List Char) : Bool := deviceNames.contains (asciiUpper name)

/-- The name with single spaces, without unsafe characters and trimmed. -/
def cleaned (name : List Char) : List Char :=
  trim (([' '].intercalate (words name)).filter isSafe)

/-- A cleaned name made fit to be a file name, whatever its length. -/
def anchored (name : List Char) : List Char :=
  if name.isEmpty || isDevice name then fallback
  else if name.head? = some '.' then fallback ++ name
  else name

/-- The file name that a requested name is reduced to. -/
def sanitize (name : String) : String :=
  String.ofList (takeBytes maxBytes (anchored (cleaned name.toList)))

end CsvQuery.FileName

/-
  CsvQuery.Storage.Path — paths and where they lead.

  A path is parts with separators between them.  Its parts are gone through one after the other: an empty
  part and a single point stay where they are, two points go up, and any other part goes into what has
  that name.  A path that starts with a separator starts at the top, wherever one is.
-/
namespace CsvQuery.Path

/-- The character between the parts of a path. -/
def separator : Char := '/'

/-- Whether a path starts at the top. -/
def isAbsolute (path : String) : Bool := path.toList.head? == some separator

/-- The path of a name in a directory; a name that starts at the top is a path of its own. -/
def join (path name : String) : String :=
  if isAbsolute name then name
  else if path.isEmpty || path.toList.getLast? == some separator then path ++ name
  else path ++ String.singleton separator ++ name

/-- What stands between the separators of a path. -/
def parts (path : String) : List String := (path.toList.splitOn separator).map String.ofList

/-- Where a part leads from a place, which is given by the names on the way to it from the top. -/
def follow (place : List String) (part : String) : List String :=
  if part = "" ∨ part = "." then place
  else if part = ".." then place.dropLast
  else place ++ [part]

/-- Where a path leads from a place. -/
def resolve (place : List String) (path : String) : List String :=
  (parts path).foldl follow (if isAbsolute path then [] else place)

end CsvQuery.Path

/-
  CsvQuery.Storage.Directory — a flat directory of files.

  Under a name there is a file with its bytes, another directory, or nothing.  A file can be read as
  text if its bytes are well-formed UTF-8.
-/
import CsvQuery.Error
import CsvQuery.Text.Utf8

namespace CsvQuery

/-- What stands under a name in a directory. -/
inductive Entry where
  | file (bytes : List UInt8)
  | directory

/-- Names with what stands under them; each name stands at most once. -/
structure Directory where
  entries : List (String × Entry)

namespace Directory

/-- The directory with nothing in it. -/
def empty : Directory := ⟨[]⟩

/-- What stands under a name. -/
def get? (directory : Directory) (name : String) : Option Entry := directory.entries.lookup name

/-- The directory with nothing under a name. -/
def remove (directory : Directory) (name : String) : Directory :=
  ⟨directory.entries.filter fun entry => entry.1 != name⟩

/-- The directory with a file under a name, unless a directory stands there. -/
def write (directory : Directory) (name : String) (bytes : List UInt8) : Directory :=
  match directory.get? name with
  | some .directory => directory
  | _ => ⟨(name, .file bytes) :: (directory.remove name).entries⟩

/-- The directory with a directory under a name, if nothing stands there. -/
def makeDirectory (directory : Directory) (name : String) : Directory :=
  match directory.get? name with
  | none => ⟨(name, .directory) :: directory.entries⟩
  | some _ => directory

/-- The text of the file under a name, or why it cannot be read. -/
def readText (directory : Directory) (name : String) : Except IoFault String :=
  match directory.get? name with
  | none => .error .notFound
  | some .directory => .error .isDirectory
  | some (.file bytes) =>
    match ofUtf8? bytes with
    | some text => .ok text
    | none => .error .invalidData

end Directory

end CsvQuery

/-
  CsvQuery.Storage.Service — answering file names with file texts.

  A request is reduced to a safe file name.  The text under that name comes from the cache or, if it
  is not there, from the directory; a file that cannot be read is answered with the empty text and is
  not cached.  What is cached stays as it was when it was read, whatever becomes of the file.
-/
import CsvQuery.Source
import CsvQuery.Storage.Directory
import CsvQuery.Storage.FifoCache
import CsvQuery.Storage.FileName

namespace CsvQuery

/-- A directory, and the texts of the files that were read from it last. -/
structure Storage where
  directory : Directory
  cache : FifoCache String String

namespace Storage

/-- The storage of a directory with nothing read from it. -/
def start (directory : Directory) (capacity : Nat) : Storage := ⟨directory, .empty capacity⟩

/-- A storage with room for some number of texts, if so much can be set aside. -/
def withCapacity (directory : Directory) (capacity : Nat) : Except FifoCache.RoomFault Storage :=
  (FifoCache.withCapacity capacity).map fun cache => ⟨directory, cache⟩

/-- The answer to a requested name, and the storage after it. -/
def answer (storage : Storage) (name : String) : String × Storage :=
  let (found, cache) :=
    storage.cache.getOrLoad (FileName.sanitize name) storage.directory.readText
  let reply := match found.value with
    | .ok text => text
    | .error _ => ""
  (reply, { storage with cache })

/-- The storage after a change to its directory. -/
def changeDirectory (storage : Storage) (change : Directory → Directory) : Storage :=
  { storage with directory := change storage.directory }

/-- Storage as a source, which never fails. -/
def source : Source Storage where
  fetch name := ExceptT.mk fun storage =>
    let (reply, next) := storage.answer name
    (.ok reply, next)

end Storage

end CsvQuery

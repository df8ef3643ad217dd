/-
  CsvQuery.Settings.Basic — the settings that the three roles share.

  Settings may take any values while they are put together.  They are valid when neither address is
  blank.
-/
import CsvQuery.Error
import CsvQuery.Storage.FifoCache
import CsvQuery.Table.Join.Basic
import CsvQuery.Text.Blank

namespace CsvQuery

/-- What the client, the query server and the storage have to agree on. -/
structure Settings where
  /-- Where the query server listens. -/
  serverAddr : String
  /-- Where the storage listens. -/
  storageAddr : String
  /-- The directory of the files. -/
  dataPath : String
  /-- How many files the storage keeps in its cache. -/
  cacheCapacity : UInt64
  /-- How tables are joined. -/
  joinStrategy : JoinStrategy
  deriving DecidableEq

namespace Settings

/-- The settings where nothing is said. -/
def default : Settings where
  serverAddr := "127.0.0.1:5555"
  storageAddr := "127.0.0.1:5556"
  dataPath := "data"
  cacheCapacity := UInt64.ofNat FifoCache.defaultCapacity
  joinStrategy := .default

/-- Whether a text has no character that is not blank. -/
def isBlankText (text : String) : Bool := text.toList.all isBlank

/-- The settings if they are valid, or the first address that is blank. -/
def validate (settings : Settings) : Except Error Settings :=
  if isBlankText settings.serverAddr then .error (.config "server_addr must not be empty")
  else if isBlankText settings.storageAddr then .error (.config "storage_addr must not be empty")
  else .ok settings

end Settings

end CsvQuery

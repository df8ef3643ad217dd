/-
  CsvQuery.Settings.Host — settings as a role holds them, whose data path is any path of the host.

  A path of the host is a list of bytes, while a document holds texts.  So settings can be written only
  if their data path is well-formed UTF-8; a document that is read always gives such a path.
-/
import CsvQuery.Settings.Json
import CsvQuery.Text.Utf8

namespace CsvQuery

/-- Settings whose data path need not be a text. -/
structure HostSettings where
  serverAddr : String
  storageAddr : String
  /-- The bytes of the path to the directory of the files. -/
  dataPath : List UInt8
  cacheCapacity : UInt64
  joinStrategy : JoinStrategy
  deriving DecidableEq

namespace HostSettings

/-- Settings with the data path as bytes. -/
def ofSettings (settings : Settings) : HostSettings where
  serverAddr := settings.serverAddr
  storageAddr := settings.storageAddr
  dataPath := utf8 settings.dataPath
  cacheCapacity := settings.cacheCapacity
  joinStrategy := settings.joinStrategy

/-- Settings with the data path as a text, if it is one. -/
def toSettings? (host : HostSettings) : Option Settings := do
  let path ← ofUtf8? host.dataPath
  return ⟨host.serverAddr, host.storageAddr, path, host.cacheCapacity, host.joinStrategy⟩

/-- The settings as a JSON document, if they can be written. -/
def toJson (host : HostSettings) : Except Error String :=
  match host.toSettings? with
  | some settings => .ok settings.toJson
  | none => .error (.configParse .mismatched)

/-- The settings that a JSON document holds, if they are valid. -/
def ofJson (document : String) : Except Error HostSettings :=
  (Settings.ofJson document).map ofSettings

end HostSettings

end CsvQuery

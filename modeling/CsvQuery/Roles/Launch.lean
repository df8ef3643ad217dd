/-
  CsvQuery.Roles.Launch — the three roles started together.

  The storage is started first, unless it is embedded in the query server or left out, then the query
  server, then one client after the other.  Each role reads the settings file, if there is one, and
  its own overrides.  A role refuses an override that does not read with exit code 2, and settings that
  are not valid or ask for too large a cache with exit code 1; overrides are looked at first.
-/
import CsvQuery.Query.Run
import CsvQuery.Roles.Client
import CsvQuery.Settings.Override
import CsvQuery.Storage.Service
import CsvQuery.Wire.Remote

namespace CsvQuery

/-- How the roles are started. -/
structure Launch where
  /-- The settings file, if there is one. -/
  document : Option String
  /-- The directory of the files. -/
  directory : Directory
  /-- Whether the query server reads the files itself. -/
  embedded : Bool
  /-- Whether the storage is left out. -/
  storageDown : Bool
  /-- The query server's override of the join strategy. -/
  strategy : Option String
  /-- The storage's override of the cache capacity. -/
  capacity : Option String
  /-- What each client is given to send. -/
  clients : List ClientTask

/-- What comes of starting the roles. -/
inductive LaunchResult where
  | storageExit (code : Nat)
  | serverExit (code : Nat)
  | ran (runs : List ClientRun)

namespace Launch

/-- The settings that the roles find, before their overrides. -/
def found (launch : Launch) : Except Error Settings :=
  match launch.document with
  | none => .ok Settings.default
  | some document => Settings.ofJson document

/-- The storage, or the exit code with which it ends.  One that is left out is never asked. -/
def storage (launch : Launch) : Except Nat Storage := do
  if launch.storageDown then return .start launch.directory FifoCache.defaultCapacity
  let settings ← Settings.changed launch.found (launch.capacity.toList.map Settings.capacityChange)
  settings.storage launch.directory

/-- The settings of the query server, or the exit code with which it ends. -/
def serverSettings (launch : Launch) : Except Nat Settings :=
  Settings.changed launch.found (launch.strategy.toList.map Settings.strategyChange)

/-- Starts a query server that reads the files itself, and gives what the clients leave behind. -/
def runEmbedded (launch : Launch) (passing : Passing) : LaunchResult :=
  let role : Except Nat (Settings × Storage) := do
    let server ← launch.serverSettings
    return (server, ← server.storage launch.directory)
  match role with
  | .error code => .serverExit code
  | .ok (server, storage) =>
    .ran (Client.startAll (answer Storage.source server.joinStrategy) passing (.start storage)
      launch.clients)

/-- Starts a storage and a query server that asks it for the files, and gives what the clients leave
behind. -/
def runRemote (launch : Launch) (passing : Passing) : LaunchResult :=
  match launch.storage with
  | .error code => .storageExit code
  | .ok storage =>
    match launch.serverSettings with
    | .error code => .serverExit code
    | .ok server =>
      let source := Remote.source Storage.source.fetch (passing.toward !launch.storageDown)
      .ran (Client.startAll (answer source server.joinStrategy) passing
        (.start (.start (Responder.start storage))) launch.clients)

/-- Starts the roles on a host that treats all connections alike. -/
def run (launch : Launch) (passing : Passing) : LaunchResult :=
  if launch.embedded then launch.runEmbedded passing else launch.runRemote passing

end Launch

end CsvQuery

/-
  CsvQuery.Main — the program.

  Answers queries over the CSV files of a directory: the one query of the option `-e`, or else each
  line of the standard input that is not blank.  The files that a query names are read when it is
  run, except those that the cache still holds.
-/
import CsvQuery.Query.Run
import CsvQuery.Roles.Client
import CsvQuery.Roles.CommandLine
import CsvQuery.Storage.Path
import CsvQuery.Storage.Service

namespace CsvQuery

/-- A file under a name, from where it lies; nothing if it cannot be read. -/
def readEntry (name path : String) : IO (List (String × Entry)) := do
  try
    let bytes ← IO.FS.readBinFile path
    return [(name, .file bytes.data.toList)]
  catch _ => return []

/-- A directory with the files that a line names. -/
def readNamed (path line : String) : IO Directory := do
  let names := ((parse line).filterMap Command.path?).map FileName.sanitize
  return ⟨(← names.mapM fun name => readEntry name (Path.join path name)).flatten⟩

/-- Answers one line and prints the reply. -/
def answerLine (settings : Settings) (storage : Storage) (line : String) : IO (UInt32 × Storage) := do
  let directory ← readNamed settings.dataPath line
  let storage := storage.changeDirectory fun _ => directory
  match (answer Storage.source settings.joinStrategy line).outcome storage with
  | (.ok reply, storage) =>
    IO.print (Client.printed reply)
    return (0, storage)
  | (.error cause, storage) =>
    IO.eprintln cause.message
    return (1, storage)

/-- Answers the lines of the standard input. -/
partial def answerInput (settings : Settings) (storage : Storage) : IO UInt32 := do
  let line ← (← IO.getStdin).getLine
  if line.isEmpty then return 0
  let mut storage := storage
  for sent in Client.sentLines line do
    let (code, next) ← answerLine settings storage sent
    if code != 0 then return code
    storage := next
  answerInput settings storage

/-- Runs the program with the options of its command line. -/
def runOptions (options : Options) : IO UInt32 := do
  let files : Directory := ⟨← readEntry options.config options.config⟩
  let role : Except Nat (Settings × Storage) := do
    let settings ← Settings.changed (Settings.ofFileOrDefault files options.config) options.changes
    return (settings, ← settings.storage .empty)
  match role with
  | .error code =>
    IO.eprintln (if code = 2 then "refused option value" else "unusable settings")
    return UInt32.ofNat code
  | .ok (settings, storage) =>
    match options.execute with
    | some line => return (← answerLine settings storage line).1
    | none => answerInput settings storage

end CsvQuery

/-- The program. -/
def main (arguments : List String) : IO UInt32 :=
  match CsvQuery.Options.default.ofArguments arguments with
  | .ok options => CsvQuery.runOptions options
  | .error name => do
    IO.eprintln ("refused option: " ++ name)
    return 2

/-
  CsvQuery.Settings.Json — settings as a JSON document.

  Written, the settings are one object with a member for each setting.  Read, they are an object whose
  members may come in any order, be missing or be unknown, but not repeated, or an array of values in
  the order of the settings that may end early.  What is missing keeps its default.  A strategy is its
  name, or an object with its name as the key of a null; any other beginning of a strategy or of that
  key is malformed.
-/
import CsvQuery.Json.Reader
import CsvQuery.Settings.Basic
import CsvQuery.Storage.Directory

namespace CsvQuery

open Json (Reader Token)

/-! ## §1. Fields -/

/-- The settings by name. -/
inductive SettingsField where
  | serverAddr
  | storageAddr
  | dataPath
  | cacheCapacity
  | joinStrategy
  deriving DecidableEq

namespace SettingsField

/-- The key of a field. -/
def name : SettingsField → String
  | serverAddr => "server_addr"
  | storageAddr => "storage_addr"
  | dataPath => "data_path"
  | cacheCapacity => "cache_capacity"
  | joinStrategy => "join_strategy"

/-- All fields, in their order. -/
def all : List SettingsField :=
  [.serverAddr, .storageAddr, .dataPath, .cacheCapacity, .joinStrategy]

/-- The field with a key. -/
def ofName? (name : String) : Option SettingsField := all.find? fun field => field.name = name

end SettingsField

/-! ## §2. Writing -/

namespace Settings

/-- The value of a field as it is written. -/
def writeField (settings : Settings) : SettingsField → List Char
  | .serverAddr => Json.writeText settings.serverAddr
  | .storageAddr => Json.writeText settings.storageAddr
  | .dataPath => Json.writeText settings.dataPath
  | .cacheCapacity => Nat.toDigits 10 settings.cacheCapacity.toNat
  | .joinStrategy => Json.writeText settings.joinStrategy.name

/-- A member of the written object, on a line of its own. -/
def writeMember (settings : Settings) (field : SettingsField) : List Char :=
  ['\n', ' ', ' '] ++ Json.writeText field.name ++ [':', ' '] ++ settings.writeField field

/-- The settings as a JSON document. -/
def toJson (settings : Settings) : String :=
  String.ofList <|
    '\x7b' :: ([','].intercalate (SettingsField.all.map settings.writeMember) ++ ['\n', '\x7d'])

end Settings

/-! ## §3. Reading -/

/-- The strategy with a name. -/
def JoinStrategy.ofName? (name : String) : Option JoinStrategy :=
  [hash, sortMerge].find? fun strategy => strategy.name = name

namespace Json.Reader

/-- Reads the name of a strategy where a key is wanted. -/
def strategyName : Reader JoinStrategy := do
  match JoinStrategy.ofName? (← key) with
  | some strategy => return strategy
  | none => throw .mismatched

/-- Reads a strategy. -/
def strategy : Reader JoinStrategy := do
  if ← sees .openObject then
    expect .openObject
    let strategy ← strategyName
    expect .colon
    null
    expect .closeObject
    return strategy
  else strategyName

end Json.Reader

namespace Settings

/-- Settings with one field read from tokens. -/
def readField (settings : Settings) : SettingsField → Reader Settings
  | .serverAddr => return { settings with serverAddr := ← Reader.text }
  | .storageAddr => return { settings with storageAddr := ← Reader.text }
  | .dataPath => return { settings with dataPath := ← Reader.text }
  | .cacheCapacity => return { settings with cacheCapacity := ← Reader.word }
  | .joinStrategy => return { settings with joinStrategy := ← Reader.strategy }

/-- Settings as far as an object has given them, and the fields that it has given. -/
structure Members where
  settings : Settings
  given : List SettingsField

/-- Reads a member after its key. -/
def Members.readMember (p : Members) (key : String) : Reader Members :=
  match SettingsField.ofName? key with
  | none => do
    Reader.expect .colon
    Reader.ignore
    return p
  | some field =>
    if field ∈ p.given then throw .mismatched
    else do
      Reader.expect .colon
      return ⟨← p.settings.readField field, field :: p.given⟩

/-- Reads members from the key of one to the end of the object; there are no more than `bound`. -/
def Members.readMembers (p : Members) : (bound : Nat) → Reader Settings
  | 0 => throw .truncated
  | bound + 1 => do
    let p ← p.readMember (← Reader.key)
    match ← Reader.next with
    | .comma => p.readMembers bound
    | .closeObject => return p.settings
    | _ => throw .malformed

/-- Reads the members of an object after its opening. -/
def readObject (bound : Nat) : Reader Settings := do
  if ← Reader.sees .closeObject then
    Reader.expect .closeObject
    return default
  else Members.readMembers ⟨default, []⟩ bound

/-- Reads the values of the given fields, from one of them to the end of the array. -/
def readValues (settings : Settings) : List SettingsField → Reader Settings
  | [] => return settings
  | field :: fields => do
    let settings ← settings.readField field
    match ← Reader.next with
    | .closeArray => return settings
    | .comma =>
      match fields with
      | [] => throw .malformed
      | _ :: _ =>
        if ← Reader.sees .closeArray then throw .malformed
        else settings.readValues fields
    | _ => throw .malformed

/-- Reads the values of an array after its opening. -/
def readArray : Reader Settings := do
  if ← Reader.sees .closeArray then
    Reader.expect .closeArray
    return default
  else default.readValues SettingsField.all

/-- Reads settings. -/
def reader (bound : Nat) : Reader Settings := do
  match ← Reader.next with
  | .openObject => readObject bound
  | .openArray => readArray
  | token => throw token.mismatch

/-- The settings that a list of tokens stands for. -/
def ofTokens (tokens : List Token) : Except JsonFault Settings :=
  ((do
    let settings ← reader tokens.length
    Reader.finish
    return settings : Reader Settings).run tokens).map Prod.fst

/-- The settings that a JSON document holds, if they are valid. -/
def ofJson (document : String) : Except Error Settings :=
  match ofTokens (Json.tokens document.toList) with
  | .ok settings => settings.validate
  | .error fault => .error (.configParse fault)

/-! ## §4. Files -/

/-- The settings in a file of a directory. -/
def ofFile (directory : Directory) (name : String) : Except Error Settings :=
  match directory.readText name with
  | .ok document => ofJson document
  | .error fault => .error (.ofFault fault)

/-- The settings in a file of a directory, or the default ones if nothing stands under its name. -/
def ofFileOrDefault (directory : Directory) (name : String) : Except Error Settings :=
  if (directory.get? name).isSome then ofFile directory name else .ok default

end Settings

end CsvQuery

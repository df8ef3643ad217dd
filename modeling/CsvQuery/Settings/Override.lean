/-
  CsvQuery.Settings.Override — settings changed by the arguments of a role.

  An argument may not read as a value of its setting; a role that is given such an argument ends with
  exit code 2, whatever its settings file says.  A role whose settings file is faulty, or that
  cannot set aside the cache that its settings ask for, ends with exit code 1.
-/
import CsvQuery.Settings.Json
import CsvQuery.Storage.Service
import CsvQuery.Table.Join

namespace CsvQuery

/-- The unsigned word of 64 bits that a text denotes; a plus may stand before its digits. -/
def wordOfText? (text : String) : Option UInt64 :=
  let digits := match text.toList with
    | '+' :: rest => rest
    | digits => digits
  if digits.isEmpty || !digits.all Char.isDigit then none
  else if digitsValue digits < UInt64.size then some (UInt64.ofNat (digitsValue digits))
  else none

namespace Settings

/-- A change of settings, which is missing if its argument does not read. -/
abbrev Change := Option (Settings → Settings)

/-- The change that an argument for the cache capacity makes. -/
def capacityChange (argument : String) : Change :=
  (wordOfText? argument).map fun capacity settings => { settings with cacheCapacity := capacity }

/-- The change that an argument for the join strategy makes. -/
def strategyChange (argument : String) : Change :=
  (JoinStrategy.ofText argument).toOption.map fun strategy settings =>
    { settings with joinStrategy := strategy }

/-- The settings with all changes made to them, or the exit code with which the role ends. -/
def changed (settings : Except Error Settings) (changes : List Change) : Except Nat Settings :=
  if changes.any Option.isNone then .error 2
  else
    match settings with
    | .error _ => .error 1
    | .ok settings => .ok (changes.foldl (fun settings change => change.getD id settings) settings)

/-- The storage of a role that reads the files of a directory, or the exit code with which it ends. -/
def storage (settings : Settings) (directory : Directory) : Except Nat Storage :=
  match Storage.withCapacity directory settings.cacheCapacity.toNat with
  | .ok storage => .ok storage
  | .error _ => .error 1

end Settings

end CsvQuery

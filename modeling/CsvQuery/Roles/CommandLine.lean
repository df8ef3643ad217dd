/-
  CsvQuery.Roles.CommandLine — the arguments of the command line.

  Every option takes one value, in the next argument.  An option that is not known, or that has no
  value, is refused.
-/
import CsvQuery.Roles.Argument
import CsvQuery.Settings.Override

namespace CsvQuery

/-- What is asked for on the command line. -/
structure Options where
  /-- The settings file. -/
  config : String
  /-- The directory of the files, if the settings are overridden. -/
  dataPath : Option String
  strategy : Option String
  capacity : Option String
  /-- The one line to run; without it, lines are read from the input. -/
  execute : Option String
  deriving DecidableEq

namespace Options

/-- What is asked for without arguments. -/
def default : Options := ⟨"settings.json", none, none, none, none⟩

/-- The options with one more, if it is known. -/
def set? (options : Options) (name value : String) : Option Options :=
  match name with
  | "-c" | "--config" => some { options with config := value }
  | "-d" | "--data-path" => some { options with dataPath := some value }
  | "-j" | "--join-strategy" => some { options with strategy := some value }
  | "--cache-capacity" => some { options with capacity := some value }
  | "-e" | "--execute" => some { options with execute := some value }
  | _ => none

/-- The options that arguments give, or the argument that is refused. -/
def ofArguments (options : Options) : List String → Except String Options
  | [] => .ok options
  | [name] => .error name
  | name :: value :: rest =>
    if isOption value then .error name
    else
      match options.set? name value with
      | some options => options.ofArguments rest
      | none => .error name

/-- The changes that the options make to settings. -/
def changes (options : Options) : List Settings.Change :=
  options.dataPath.toList.map (fun path => some fun settings => { settings with dataPath := path })
    ++ options.strategy.toList.map Settings.strategyChange
    ++ options.capacity.toList.map Settings.capacityChange

end Options

end CsvQuery

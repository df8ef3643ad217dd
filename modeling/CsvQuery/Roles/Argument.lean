/-
  CsvQuery.Roles.Argument — arguments that look like options.

  An argument that starts with a hyphen and goes on after it is taken for an option, wherever it
  stands.  So it is never the value of an option; a hyphen alone may be one.
-/
namespace CsvQuery

/-- Whether an argument is taken for an option. -/
def isOption (argument : String) : Bool :=
  match argument.toList with
  | '-' :: _ :: _ => true
  | _ => false

end CsvQuery

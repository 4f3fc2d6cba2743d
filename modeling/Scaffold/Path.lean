import Scaffold.Text.Split
/-!
Paths as texts: steps with slashes between them, from the root if a slash comes
first.
-/
namespace Scaffold.Path

/-- Whether a path starts at the root. -/
def isAbsolute (path : String) : Bool := path.toList.head? == some '/'

/-- The path of `path` as seen from `directory`. -/
def join (directory path : String) : String :=
  if isAbsolute path || directory.isEmpty then path
  else if directory.toList.getLast? == some '/' then directory ++ path
  else directory ++ "/" ++ path

/-- The steps of a path that lead somewhere: neither empty nor a dot. -/
def steps (path : String) : List String :=
  (Text.splitAt path '/').filter fun step => !step.isEmpty && step != "."

/-- The name that a path ends in, unless it ends in a step up. -/
def fileName? (path : String) : Option String :=
  (steps path).getLast?.filter (· != "..")

/-- What stands behind the last dot of a name, if something stands in front of
it. -/
def extension? (path : String) : Option String := do
  let name ← fileName? path
  let parts := Text.splitAt name '.'
  if Text.join "." parts.dropLast = "" then none else parts.getLast?

end Scaffold.Path

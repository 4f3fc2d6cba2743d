import Scaffold.Failure
import Scaffold.FileSystem
import Scaffold.Json
import Scaffold.Project
import Scaffold.Toml
import Scaffold.Yaml.Document
/-!
The settings file of a project: where it is found, and how its name tells its
format. The nearest directory with such a file counts, and in it the file whose
name comes first in a fixed order.
-/
namespace Scaffold.Project

/-- The names of settings files, those that go first in front. -/
def fileNames : List String :=
  [".mkcomprc.json", ".mkcomprc.toml", ".mkcomprc.yaml", "mkcomp.yaml",
    "mkcomp.yml"]

/-- What can be wrong with a settings file. -/
inductive LoadFault
  | unreadable (fault : FileFault)
  | unknownFormat
  /-- The text is not of its format. -/
  | malformed (detail : String)
  /-- The text is of its format, but does not hold settings. -/
  | unexpected
  deriving DecidableEq, Repr

def LoadFault.message : LoadFault → String
  | unreadable fault => fault.message
  | unknownFormat =>
    "Unsupported file extension (expected .json, .toml, .yaml or .yml)"
  | malformed detail => detail
  | unexpected => "the file does not hold settings"

/-- The formats of settings files. -/
inductive FileFormat
  | json
  | toml
  | yaml
  deriving DecidableEq, Repr

def FileFormat.ofPath? (path : String) : Option FileFormat :=
  match Path.extension? path with
  | some "json" => some json
  | some "toml" => some toml
  | some "yaml" | some "yml" => some yaml
  | _ => none

/-- The settings that a text of a format holds. -/
def ofText (format : FileFormat) (text : String) :
    Except LoadFault Project := do
  let read (f : Data.Format) (d : Data) : Except LoadFault Project :=
    match ofData? f d with
    | some p => .ok p
    | none => .error .unexpected
  match format with
  | .json => match Json.parse? text with
    | some d => read .json d
    | none => throw (.malformed "the file is not of its format")
  | .toml => match Toml.parse? text with
    | some d => read .toml d
    | none => throw (.malformed "the file is not of its format")
  | .yaml => match Yaml.words text with
    | .ok d => read .words d
    | .error fault => throw (.malformed fault.message)

def ofFile (path text : String) : Except LoadFault Project :=
  match FileFormat.ofPath? path with
  | some format => ofText format text
  | none => .error .unknownFormat

/-- The failure for a file that cannot be used. -/
def loadFailure (path : String) (fault : LoadFault) : Failure :=
  .config ("Failed to load config from '" ++ path ++ "': " ++ fault.message)

/-- The failure for a file that was asked for and is not there. -/
def notFound (path : String) : Failure :=
  .config ("Config file not found: " ++ path)

/-- The failure for a place that discovery cannot start from. -/
def invalidStart (fault : FileFault) : Failure :=
  .config ("Invalid path: " ++ fault.message)

variable {m : Type → Type} [Monad m] [FileSystem m]

def loadFile (path : String) : m (Except Failure Project) := do
  match ← FileSystem.read path with
  | .error fault => return .error (loadFailure path (.unreadable fault))
  | .ok text =>
    match ofFile path text with
    | .ok p => return .ok p
    | .error fault => return .error (loadFailure path fault)

def firstFile : List String → m (Option String)
  | [] => return none
  | path :: paths => do
    if ← FileSystem.isFile path then return some path
    firstFile paths

/-- The settings file for components at a place. -/
def discover (start : String) : m (Except Failure (Option String)) := do
  match ← FileSystem.placesUpward start with
  | .error fault => return .error (invalidStart fault)
  | .ok places =>
    return .ok (← firstFile (places.flatMap fun place =>
      fileNames.map (Path.join place)))

/-- Loads the settings of a file that is asked for, or else of the one for a
place. Without any file there are no settings. -/
def load (path : Option String) (start : String) :
    m (Except Failure Project) := do
  match path with
  | some path =>
    if ← FileSystem.isPresent path then loadFile path
    else return .error (notFound path)
  | none =>
    match ← discover start with
    | .error failure => return .error failure
    | .ok (some path) => loadFile path
    | .ok none => return .ok {}

end Scaffold.Project

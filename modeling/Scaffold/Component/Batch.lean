import Scaffold.Component.Rendering
import Scaffold.FileSystem
/-!
Components written to a file system, one or many. A component that fails does
not keep the others from being written.
-/
namespace Scaffold.Component

/-- The paths that were written, and those that were not, each list in order. -/
structure WriteReport where
  written : List String := []
  failed : List (String × FileFault) := []
  deriving DecidableEq, Repr

namespace WriteReport

def add (report : WriteReport) (path : String) :
    Except FileFault Unit → WriteReport
  | .ok _ => { report with written := report.written ++ [path] }
  | .error fault => { report with failed := report.failed ++ [(path, fault)] }

end WriteReport

variable {m : Type → Type} [Monad m] [FileSystem m]

/-- Writes files, all of them even if some fail. -/
def writeEach (report : WriteReport) : List File → m WriteReport
  | [] => pure report
  | f :: files => do
    let outcome ← FileSystem.write f.path f.content
    writeEach (report.add f.path outcome) files

/-- Makes a directory and writes files. If the directory cannot be made, the
files show it. -/
def writeFiles (directory : String) (files : List File) : m WriteReport := do
  if !directory.isEmpty then
    let _ ← FileSystem.makeDirectories (m := m) directory
  writeEach {} files

/-- What came of one request. -/
structure Outcome where
  component : String
  /-- The paths that were written. -/
  result : Except Failure (List String)
  warnings : List String := []

/-- Renders and writes one component. Of several files that fail the first
counts. -/
def generate (c : Config) (r : Request) : m Outcome :=
  match r.render c with
  | .error failure => pure ⟨r.name, .error failure, []⟩
  | .ok rendering => do
    let report ← writeFiles r.directory rendering.files
    return match report.failed with
      | [] => ⟨r.name, .ok report.written, rendering.warnings⟩
      | (path, fault) :: _ =>
        ⟨r.name, .error (.file path fault.message), rendering.warnings⟩

/-- What came of many requests. -/
structure BatchReport where
  /-- The components that were generated. -/
  generated : List String
  /-- The components that were not, and why. -/
  failures : List (String × Failure)
  /-- The files of the generated components. -/
  written : List String
  warnings : List String
  deriving DecidableEq, Repr

namespace BatchReport

/-- The report on outcomes, in their order. -/
def ofOutcomes (outcomes : List Outcome) : BatchReport where
  generated := outcomes.filterMap fun o => match o.result with
    | .ok _ => some o.component
    | .error _ => none
  failures := outcomes.filterMap fun o => match o.result with
    | .ok _ => none
    | .error failure => some (o.component, failure)
  written := outcomes.flatMap fun o => match o.result with
    | .ok written => written
    | .error _ => []
  warnings := outcomes.flatMap (·.warnings)

end BatchReport

def generateEach (c : Config) : List Request → m (List Outcome)
  | [] => pure []
  | r :: requests => do
    let outcome ← generate c r
    let outcomes ← generateEach c requests
    return outcome :: outcomes

def generateAll (c : Config) (requests : List Request) : m BatchReport := do
  return .ofOutcomes (← generateEach c requests)

namespace Request

def listing (number : Nat) (r : Request) : String :=
  Numeral.text number ++ ". " ++ r.name ++ "\n" ++
    "   Type: " ++ r.language.extension ++ "\n" ++
    "   Style: " ++ r.style.name ++ "\n" ++
    "   Directory: " ++ r.directory ++ "\n" ++
    (if r.props.isEmpty then "" else "   Props: " ++ r.props ++ "\n") ++
    (if r.source.source.isEmpty then ""
      else "   Structure: " ++ r.source.source ++ "\n") ++ "\n"

def preview (requests : List Request) : String :=
  "\n=== YAML PREVIEW MODE ===\n\n" ++
    "Found " ++ Numeral.text requests.length ++
      " component(s) to generate:\n\n" ++
    String.join (requests.zipIdx.map fun (r, i) => r.listing (i + 1)) ++
    "To generate these components, run the same command without --test\n"

end Request

end Scaffold.Component

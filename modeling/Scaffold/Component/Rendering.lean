import Scaffold.Component.Body
import Scaffold.Component.Stylesheet
import Scaffold.Failure
/-!
The files of a component, rendered but not yet written.
-/
namespace Scaffold.Component

/-- What a generated file is. -/
inductive FileRole
  | component
  | stylesheet
  deriving DecidableEq, Repr

/-- A generated file that is not yet written. -/
structure File where
  path : String
  content : String
  role : FileRole
  deriving DecidableEq, Repr

namespace File

/-- The listing of files that a dry run shows. -/
def preview (files : List File) : String :=
  "\n=== PREVIEW MODE ===\n\n" ++
    String.join (files.map fun f =>
      "--- " ++ f.path ++ " ---\n" ++ f.content ++ "\n\n\n")

end File

/-- The files of a component. -/
structure Rendering where
  files : List File
  warnings : List String
  deriving DecidableEq, Repr

namespace Request

/-- The files that a request with this body has. -/
def filesWith (r : Request) (body : Body) : List File :=
  let component : File :=
    ⟨r.componentPath, Source.text r body.markup, .component⟩
  match r.stylesheetPath? with
  | some path =>
    [component,
      ⟨path, Stylesheet.text r.style r.command body.selectors, .stylesheet⟩]
  | none => [component]

/-- Renders the files of a request, of which only the name can be wrong. -/
def render (c : Config) (r : Request) : Except Failure Rendering :=
  match nameFault? r.name with
  | some fault => .error (.validation fault.message)
  | none =>
    let (body, warnings) := Body.ofStructure c r.source
    .ok ⟨r.filesWith body, warnings⟩

/-- Whether the program answers a request. Only the body can stop it. -/
def isAnswered (c : Config) (r : Request) : Bool :=
  (nameFault? r.name).isSome || Body.isAnswered c r.source

end Request

end Scaffold.Component

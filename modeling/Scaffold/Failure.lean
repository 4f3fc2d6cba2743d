import Scaffold.AbbreviationError
/-!
The failures that reach a user, each with what it is about, and their wording.
-/
namespace Scaffold

/-- The classes of failures. -/
inductive FailureKind
  | abbreviation
  | config
  | manifest
  | validation
  | file
  | internal
  deriving DecidableEq, Repr

/-- A failure of a run or of one component in it. -/
inductive Failure
  /-- The abbreviation `input` cannot be read. -/
  | abbreviation (cause : AbbreviationError) (input : String)
  /-- The project's settings cannot be found or read. -/
  | config (detail : String)
  /-- A manifest cannot be read. -/
  | manifest (detail : String)
  /-- What the user asked for is not possible. -/
  | validation (detail : String)
  /-- The file system refuses `path`. -/
  | file (path : String) (detail : String)
  | internal (detail : String)
  deriving DecidableEq, Repr

namespace Failure

def kind : Failure → FailureKind
  | abbreviation _ _ => .abbreviation
  | config _ => .config
  | manifest _ => .manifest
  | validation _ => .validation
  | file _ _ => .file
  | internal _ => .internal

def message : Failure → String
  | abbreviation cause _ => "Abbreviation error: " ++ cause.text
  | config detail => "Configuration error: " ++ detail
  | manifest detail => "Failed to process YAML file: " ++ detail
  | validation detail => detail
  | file path detail => "IO error for path '" ++ path ++ "': " ++ detail
  | internal detail => "Internal error: " ++ detail

/-- Whether the components that follow are still worth trying. -/
def isRecoverable (f : Failure) : Bool :=
  match f.kind with
  | .abbreviation | .validation | .file => true
  | .config | .manifest | .internal => false

/-- The failure for a manifest that is no document of the expected form. -/
def invalidManifest (detail : String) : Failure :=
  .manifest ("Invalid YAML: " ++ detail)

end Failure

end Scaffold

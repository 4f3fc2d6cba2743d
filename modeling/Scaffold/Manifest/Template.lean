import Scaffold.Failure
import Scaffold.FileSystem
/-!
Manifests to start from: an example of everything that a manifest can say, and a
small one.
-/
namespace Scaffold.Manifest.Template

/-- The name of the file that the example is written to unless another one is
given. -/
def defaultPath : String := "components.yaml"

def ofLines (lines : List String) : String :=
  String.join (lines.map (· ++ "\n"))

/-- The example of everything. -/
def full : String := ofLines
  ["# mkcomp YAML Template",
    "# This file defines multiple components that can be batch-generated", "#",
    "# Usage:", "#   mkcomp --from-yaml components.yaml",
    "#   mkcomp --from-yaml components.yaml --only Button,Modal",
    "#   mkcomp --from-yaml components.yaml --test", "",
    "# Example components with different configurations", "components:",
    "# Basic UI Button Component", "- name: Button", "  type: tsx", "  output:",
    "    directory: src/components/ui", "    style: css", "  props:",
    "  - name: children", "    type: React.ReactNode", "    required: false",
    "  - name: variant", "    type: '''primary'' | ''secondary'' | ''danger'''",
    "    required: false", "    default: '''primary'''", "  - name: size",
    "    type: '''sm'' | ''md'' | ''lg'''", "    required: false",
    "    default: '''md'''", "  - name: onClick", "    type: () => void",
    "    required: false", "  - name: disabled", "    type: boolean",
    "    required: false", "    default: false", "  structure:",
    "    emmet: button.btn[type=button]>span.btn-text",
    "# Modal Dialog with hooks and effects", "- name: Modal", "  type: tsx",
    "  output:", "    directory: src/components/overlays", "    style: scss",
    "  props:", "  - name: isOpen", "    type: boolean", "    required: true",
    "  - name: title", "    type: string", "    required: true",
    "  - name: children", "    type: React.ReactNode", "    required: false",
    "  - name: onClose", "    type: () => void", "    required: true",
    "  - name: size", "    type: '''sm'' | ''md'' | ''lg'' | ''xl'''",
    "    required: false", "    default: '''md'''", "  structure:",
    "    emmet: div.modal-overlay>div.modal>div.modal-header>h2.modal-title+button.mo" ++
    "dal-close[aria-label=\"Close\"]^div.modal-body+div.modal-footer",
    "  hooks:", "  - useEffect", "  - useState", "  custom:", "    effects:",
    "    - trigger: isOpen",
    "      action: 'document.body.style.overflow = isOpen ? ''hidden'' : ''auto'''",
    "# Tailwind Card Component (JavaScript)", "- name: Card", "  type: jsx",
    "  output:", "    directory: src/components/ui", "    style: tailwind",
    "  props:", "  - name: title", "    type: string", "    required: true",
    "  - name: description", "    type: string", "    required: false",
    "  - name: children", "    type: React.ReactNode", "    required: false",
    "  structure:",
    "    emmet: div.bg-white.rounded-lg.shadow-md.p-6>h3.text-lg.font-semibold.mb-2+p" ++
    ".text-gray-600.mb-4+div.card-content", "# Global configuration settings",
    "config:", "  # Default settings for all components", "  defaults:",
    "    type: auto", "    style: css", "    directory: src/components"]

/-- A manifest of one component. -/
def minimal : String := ofLines
  ["# Minimal React Component Template",
    "# Generate with: mkcomp --from-yaml components.yaml",
    "",
    "components:",
    "- name: ExampleComponent",
    "  type: auto",
    "  output:",
    "    directory: src/components",
    "    style: css",
    "  props:",
    "  - name: title",
    "    type: string",
    "    required: true",
    "  - name: children",
    "    type: React.ReactNode",
    "    required: false",
    "  structure:",
    "    emmet: div.example>h2.title+div.content"]

def failure (path : String) : FileFault → Failure
  | .alreadyExists =>
    .validation ("File " ++ path ++
      " already exists. Choose a different name or remove it first.")
  | fault => .file path fault.message

def write {m : Type → Type} [Monad m] [FileSystem m] (path content : String) :
    m (Except Failure Unit) := do
  match ← FileSystem.create path content with
  | .ok _ => return .ok ()
  | .error fault => return .error (failure path fault)

end Scaffold.Manifest.Template

import Scaffold.Component
import Scaffold.Project
/-!
Manifests: lists of components to generate together, with defaults of their own,
and the requests that they stand for.
-/
namespace Scaffold

namespace Manifest

/-- A prop that a component declares. -/
structure PropEntry where
  name : String
  type : String
  required : Option Bool := none
  deriving DecidableEq, Repr

/-- The entry in a list of props. Only what is said not to be required is
optional. -/
def PropEntry.text (p : PropEntry) : String :=
  p.name ++ (if p.required = some false then "?" else "") ++ ":" ++ p.type

/-- A module that a component imports something from. -/
structure Import where
  source : String
  clause : String
  deriving DecidableEq, Repr

def Import.statement (i : Import) : String :=
  "import " ++ i.clause ++ " from '" ++ i.source ++ "';"

/-- Where the files of a component go, and its style. -/
structure Output where
  directory : String
  style : Option Style := none
  deriving DecidableEq, Repr

/-- Where the markup of a component comes from; an abbreviation goes before
markup. -/
structure Markup where
  abbreviation : Option String := none
  markup : Option String := none
  deriving DecidableEq, Repr

/-- The structure that is given, if one of its texts is not empty. -/
def Markup.structure? (m : Markup) : Option Structure :=
  match m.abbreviation.filter (!·.isEmpty), m.markup.filter (!·.isEmpty) with
  | some s, _ => some (.abbreviation s)
  | none, some s => some (.markup s)
  | none, none => none

/-- A component of a manifest. -/
structure Component where
  name : String
  language : LanguageSetting := .auto
  output : Output
  props : List PropEntry := []
  markup : Option Markup := none
  hooks : List String := []
  effects : List Effect := []
  imports : List Import := []
  deriving DecidableEq, Repr

/-- What components are unless they say otherwise. -/
structure Defaults where
  language : LanguageSetting := .auto
  style : Option Style := none
  directory : Option String := none
  deriving DecidableEq, Repr

end Manifest

/-- Components with the defaults for them. -/
structure Manifest where
  components : List Manifest.Component
  defaults : Manifest.Defaults := {}
  deriving DecidableEq, Repr

namespace Manifest

/-- What is decided outside of a manifest. -/
structure Overrides where
  /-- Takes the place of every component's directory. -/
  directory : Option String := none
  project : ProjectDefaults := {}
  deriving DecidableEq, Repr

/-- The directory that a recorded command does not name. -/
def usualDirectory : String := "src/components"

/-- The command that generates the component of a request on its own. -/
def command (r : Scaffold.Component.Request) : String :=
  Text.join " " <|
    ["mkcomp", r.name] ++
    (if r.props.isEmpty then [] else ["-p \"" ++ r.props ++ "\""]) ++
    (if r.directory = usualDirectory then [] else ["-d " ++ r.directory]) ++
    (if r.style = .css then [] else ["-s " ++ r.style.name]) ++
    (if r.source.source.isEmpty then []
      else ["-e \"" ++ r.source.source ++ "\""]) ++
    ["--" ++ r.language.extension]

/-- The request for a component, without its command. Each choice is made by the
component, or else by the manifest's defaults, or else by the project. -/
def Component.plainRequest (c : Component) (defaults : Defaults)
    (o : Overrides) : Scaffold.Component.Request where
  name := c.name
  props := Text.join "," (c.props.map (·.text))
  directory := o.directory.getD c.output.directory
  style := ((c.output.style.or defaults.style).or o.project.style).getD .css
  source := (c.markup.bind (·.structure?)).getD (.abbreviation "")
  language :=
    ((c.language.language?.or defaults.language.language?).or
      (o.project.language.bind (·.language?))).getD .tsx
  imports := c.imports.map (·.statement)
  hooks := c.hooks
  effects := c.effects

/-- The request for a component. -/
def Component.request (c : Component) (defaults : Defaults) (o : Overrides) :
    Scaffold.Component.Request :=
  let r := c.plainRequest defaults o
  { r with command := some (command r) }

def requests (m : Manifest) (o : Overrides) : List Scaffold.Component.Request :=
  m.components.map (·.request m.defaults o)

/-- The requests for components of the given names. -/
def select (names : List String) (rs : List Scaffold.Component.Request) :
    List Scaffold.Component.Request :=
  rs.filter fun r => names.contains r.name

end Manifest

end Scaffold

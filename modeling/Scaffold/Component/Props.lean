import Scaffold.Text.Blank
import Scaffold.Text.Split
/-!
The props of a component: read from a list of `name[?]:type` entries, and
declared as an interface or as runtime checks.
-/
namespace Scaffold.Component

/-- One declared prop. -/
structure PropDefinition where
  name : String
  type : String
  optional : Bool
  deriving DecidableEq, Repr

namespace PropDefinition

/-- The text in front of the first colon, and the text behind it if there is
one. -/
def cutAtColon (cs : List Char) : List Char × List Char :=
  let name := cs.takeWhile (· != ':')
  (name, cs.drop (name.length + 1))

/-- Reads an entry without blanks around it. A bare `children` is an optional
node; a type that is not given is `any`. -/
def ofEntry (entry : String) : PropDefinition :=
  if entry = "children" then ⟨"children", "React.ReactNode", true⟩
  else
    let (name, type) := cutAtColon entry.toList
    let name := Text.trim (String.ofList name)
    let type := Text.trim (String.ofList type)
    let optional := name.toList.getLast? == some '?'
    ⟨if optional then String.ofList name.toList.dropLast else name,
      if type.isEmpty then "any" else type, optional⟩

/-- Reads entries with commas between them; blank ones are left out. -/
def ofEntries (props : String) : List PropDefinition :=
  (((Text.splitAt props ',').map Text.trim).filter (!·.isEmpty)).map ofEntry

def interfaceLine (p : PropDefinition) : String :=
  "  " ++ p.name ++ (if p.optional then "?" else "") ++ ": " ++ p.type ++ ";"

/-- The runtime check of a type, whatever blanks the type is written with. -/
def checkOfType (type : String) : String :=
  match String.ofList (type.toList.filter (!Text.isBlank ·)) with
  | "string" => "PropTypes.string"
  | "number" => "PropTypes.number"
  | "boolean" => "PropTypes.bool"
  | "()=>void" => "PropTypes.func"
  | "React.ReactNode" => "PropTypes.node"
  | _ => "PropTypes.any"

def checkLine (p : PropDefinition) : String :=
  "  " ++ p.name ++ ": " ++ checkOfType p.type ++
    (if p.optional then "" else ".isRequired") ++ ","

end PropDefinition

def propsInterface (component : String) (props : List PropDefinition) :
    String :=
  if props.isEmpty then ""
  else "interface " ++ component ++ "Props \x7b\n" ++
    Text.join "\n" (props.map (·.interfaceLine)) ++ "\n\x7d"

/-- The runtime checks of a component's props; nothing if it has none. -/
def propsChecks (component : String) (props : List PropDefinition) : String :=
  if props.isEmpty then ""
  else component ++ ".propTypes = \x7b\n" ++
    Text.join "\n" (props.map (·.checkLine)) ++ "\n\x7d;"

end Scaffold.Component

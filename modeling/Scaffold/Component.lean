import Scaffold.Path
/-!
Requests for components: what one component is called, what it shows, how it is
styled and where its files go.
-/
namespace Scaffold

/-- The language that a component is written in. -/
inductive Language
  | tsx
  | jsx
  deriving DecidableEq, Repr

namespace Language

/-- The extension of component files, which is also the language's name. -/
def extension : Language → String
  | tsx => "tsx"
  | jsx => "jsx"

end Language

/-- A language as settings name it; `auto` leaves the choice to the next
setting. -/
inductive LanguageSetting
  | tsx
  | jsx
  | auto
  deriving DecidableEq, Repr

namespace LanguageSetting

def all : List LanguageSetting := [tsx, jsx, auto]

def name : LanguageSetting → String
  | tsx => "tsx"
  | jsx => "jsx"
  | auto => "auto"

/-- The language that a setting decides on, if it does. -/
def language? : LanguageSetting → Option Language
  | tsx => some .tsx
  | jsx => some .jsx
  | auto => none

def ofLanguage : Language → LanguageSetting
  | .tsx => tsx
  | .jsx => jsx

end LanguageSetting

namespace Language

/-- The language that explicit wishes ask for, `jsx` before `tsx`, and else a
setting. -/
def choose (jsxWanted tsxWanted : Bool) (setting : LanguageSetting) :
    Language :=
  if jsxWanted then jsx else if tsxWanted then tsx
    else setting.language?.getD tsx

end Language

/-- How a component gets its style. -/
inductive Style
  | css
  | scss
  | tailwind
  | styled
  | unstyled
  deriving DecidableEq, Repr

namespace Style

def all : List Style := [css, scss, tailwind, styled, unstyled]

def name : Style → String
  | css => "css"
  | scss => "scss"
  | tailwind => "tailwind"
  | styled => "styled"
  | unstyled => "none"

/-- Whether a stylesheet stands beside the component file. -/
def hasStylesheet : Style → Bool
  | css | scss => true
  | tailwind | styled | unstyled => false

def ofName? (s : String) : Option Style := all.find? (·.name == s)

/-- What is said of a name that no style has. -/
def unknownMessage (s : String) : String :=
  "Unknown style '" ++ s ++ "' (expected css, scss, tailwind, styled or none)"

end Style

/-- Where the markup of a component comes from. -/
inductive Structure
  | abbreviation (source : String)
  | markup (source : String)
  deriving DecidableEq, Repr

namespace Structure

def source : Structure → String
  | abbreviation s => s
  | markup s => s

end Structure

/-- An action that runs when a trigger changes. -/
structure Effect where
  trigger : String
  action : String
  deriving DecidableEq, Repr

namespace Component

/-- All that is needed to generate one component. -/
structure Request where
  name : String
  /-- Entries `name:type` with commas between them. -/
  props : String := ""
  directory : String := "."
  style : Style := .css
  source : Structure := .abbreviation ""
  language : Language := .tsx
  /-- Lines of further imports. -/
  imports : List String := []
  hooks : List String := []
  effects : List Effect := []
  /-- The command that the generated files name. -/
  command : Option String := none
  deriving DecidableEq, Repr

namespace Request

def componentPath (r : Request) : String :=
  Path.join r.directory (r.name ++ "." ++ r.language.extension)

/-- The path of the stylesheet, if the style has one. -/
def stylesheetPath? (r : Request) : Option String :=
  if r.style.hasStylesheet then
    some (Path.join r.directory (r.name ++ "." ++ r.style.name))
  else none

end Request

/-- What is wrong with a component's name. -/
inductive NameFault
  | missing
  | malformed
  deriving DecidableEq, Repr

def NameFault.message : NameFault → String
  | missing => "Component name is required"
  | malformed =>
    "Component name must start with capital letter and contain only letters and numbers"

/-- A capital ASCII letter, and behind it ASCII letters and digits only. -/
def isCapitalized : List Char → Bool
  | [] => false
  | c :: cs => c.isUpper && cs.all Char.isAlphanum

def nameFault? (name : String) : Option NameFault :=
  if name.isEmpty then some .missing
  else if isCapitalized name.toList then none
  else some .malformed

end Component

end Scaffold

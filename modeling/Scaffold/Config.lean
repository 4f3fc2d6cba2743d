import Scaffold.Dialect
import Scaffold.ImplicitTags
import Scaffold.Options
import Scaffold.Snippet.Catalogue
/-!
All that the expansion of one abbreviation needs to know besides the
abbreviation.
-/
namespace Scaffold

/-- Text for the expanded markup: one text, or one item per copy of an implicit
repeater. -/
inductive ReplacementText
  | single (text : String)
  | items (texts : List String)
  deriving DecidableEq, Repr

namespace ReplacementText

/-- The texts that are handed out one by one; blank items are not. -/
def parts : ReplacementText → List String
  | single s => [s]
  | items ss => ss.filter (!Text.isAllBlank ·)

def whole : ReplacementText → String
  | single s => s
  | items ss => Text.join "\n" ss

end ReplacementText

/-- What is written for texts and for fields. -/
structure Hooks where
  text : String → String := fun s => s
  field : Nat → String → String := fun _ name => name

/-- The number of iterations that one abbreviation's repeaters may take unless
set otherwise. -/
def defaultMaxRepeat : Nat := 10000

/-- Values that snippets refer to by name. -/
def defaultVariables : List (String × String) :=
  [("lang", "en"), ("locale", "en-US"), ("charset", "UTF-8")]

/-- Everything that one expansion depends on. -/
structure Config where
  dialect : Dialect := .html
  options : Options := {}
  snippets : Snippet.Registry := Snippet.Registry.html
  bindings : List (String × String) := defaultVariables
  text : Option ReplacementText := none
  maxRepeat : Nat := defaultMaxRepeat
  /-- Where placeholder text starts, if that is set. -/
  loremSeed : Option UInt64 := none
  /-- Where it starts otherwise, which is drawn at random. -/
  drawnSeed : UInt64 := 0
  hooks : Hooks := {}
  implicitTags : ImplicitTags := ImplicitTags.html

namespace Config

/-- The preset of a dialect. -/
def ofDialect (d : Dialect) : Config :=
  match d with
  | .xhtml => { dialect := d, options := { selfClosing := .xhtml } }
  | .xml => { dialect := d, options := { selfClosing := .xml } }
  | .xsl =>
    { dialect := d, options := { selfClosing := .xml },
      snippets := Snippet.Registry.xsl }
  | .jsx => { dialect := d, options := { selfClosing := .xhtml, jsx := true } }
  | .html | .pug | .haml | .slim => { dialect := d }

/-- The configuration with other options, except for what its dialect demands:
component syntax stays on, and the default way to close elements does not
replace another one. -/
def withOptions (c : Config) (o : Options) : Config :=
  { c with options := { o with
      jsx := o.jsx || c.options.jsx
      selfClosing := if o.selfClosing = .html then c.options.selfClosing
        else o.selfClosing } }

/-- The configuration with a way to close elements. -/
def withSelfClosing (c : Config) (s : SelfClosing) : Config :=
  { c with options := { c.options with selfClosing := s } }

def withVariable (c : Config) (name value : String) : Config :=
  { c with bindings := Entries.put name value c.bindings }

end Config

end Scaffold

import Scaffold.Text.Case
/-!
The output dialects: tag-based markup in several strictnesses, component markup,
and the three outline dialects that nest by indentation.
-/
namespace Scaffold

/-- The markup that an abbreviation is written out in. -/
inductive Dialect
  | html
  | xhtml
  | xml
  | xsl
  | jsx
  | pug
  | haml
  | slim
  deriving DecidableEq, Repr

namespace Dialect

def all : List Dialect := [html, xhtml, xml, xsl, jsx, pug, haml, slim]

def name : Dialect → String
  | html => "html"
  | xhtml => "xhtml"
  | xml => "xml"
  | xsl => "xsl"
  | jsx => "jsx"
  | pug => "pug"
  | haml => "haml"
  | slim => "slim"

/-- Whether elements nest by indentation, without closing tags. -/
def isOutline : Dialect → Bool
  | pug | haml | slim => true
  | _ => false

/-- The dialect of a name, in any ASCII letter case. -/
def ofName? (s : String) : Option Dialect :=
  all.find? fun d => Text.equalIgnoringAsciiCase d.name s

/-- What is said of a name that no dialect has. -/
def unknownMessage (s : String) : String := "Unknown syntax '" ++ s ++ "'"

end Dialect

end Scaffold

import Scaffold.Text.Case
/-!
Formatting options of the markup writers, and their defaults.
-/
namespace Scaffold

/-- How an element without content is closed: not at all, with ` /` or with
`/`. -/
inductive SelfClosing
  | html
  | xhtml
  | xml
  deriving DecidableEq, Repr

namespace SelfClosing

def name : SelfClosing → String
  | html => "html"
  | xhtml => "xhtml"
  | xml => "xml"

def all : List SelfClosing := [html, xhtml, xml]

end SelfClosing

/-- The quotes around attribute values. -/
inductive QuoteStyle
  | double
  | single
  deriving DecidableEq, Repr

namespace QuoteStyle

def mark : QuoteStyle → Char
  | double => '"'
  | single => '\''

def name : QuoteStyle → String
  | double => "double"
  | single => "single"

def all : List QuoteStyle := [double, single]

end QuoteStyle

/-- The letter case that names are written in. -/
inductive LetterCase
  | asIs
  | lower
  | upper
  deriving DecidableEq, Repr

namespace LetterCase

def apply : LetterCase → String → String
  | asIs, s => s
  | lower, s => Text.lowercase s
  | upper, s => Text.uppercase s

def name : LetterCase → String
  | asIs => "asis"
  | lower => "lower"
  | upper => "upper"

def all : List LetterCase := [asIs, lower, upper]

end LetterCase

/-- Block, element and modifier class names: whether they are expanded, and what
joins them. -/
structure BemOptions where
  enabled : Bool := false
  element : String := "__"
  modifier : String := "_"
  deriving DecidableEq, Repr

/-- Attributes that mean the same with and without a value. -/
def booleanAttributes : List String :=
  ["contenteditable", "seamless", "async", "autofocus", "autoplay", "checked",
    "controls", "defer", "disabled", "formnovalidate", "hidden", "ismap",
    "loop", "multiple", "muted", "novalidate", "readonly", "required",
    "reversed", "selected", "typemustmatch"]

/-- Elements that stand in a line of text. -/
def inlineElements : List String :=
  ["a", "abbr", "acronym", "applet", "b", "basefont", "bdo", "big", "br",
    "button", "cite", "code", "del", "dfn", "em", "font", "i", "iframe", "img",
    "input", "ins", "kbd", "label", "map", "object", "q", "s", "samp", "select",
    "small", "span", "strike", "strong", "sub", "sup", "textarea", "tt",
    "u", "var"]

/-- The knobs of the markup writers. -/
structure Options where
  /-- One unit of indentation. -/
  indent : String := "\t"
  /-- Written behind every line break, in front of the indentation. -/
  baseIndent : String := ""
  newline : String := "\n"
  tagCase : LetterCase := .asIs
  attributeCase : LetterCase := .asIs
  attributeQuotes : QuoteStyle := .double
  selfClosing : SelfClosing := .html
  /-- Whether block elements get lines and indentation of their own. -/
  format : Bool := true
  /-- Elements whose children are not indented. -/
  formatSkip : List String := ["html"]
  /-- Elements whose content always has lines of its own. -/
  formatForce : List String := ["body"]
  /-- Whether the content of childless elements has a line of its own. -/
  formatLeafNode : Bool := false
  /-- The number of adjacent inline siblings from which on each has a line of
  its own. -/
  inlineBreak : Nat := 3
  /-- Whether boolean attributes are written without a value. -/
  compactBoolean : Bool := false
  booleanAttributes : List String := Scaffold.booleanAttributes
  /-- Whether a snippet's attributes come behind those of the abbreviation. -/
  reverseAttributes : Bool := false
  inlineElements : List String := Scaffold.inlineElements
  /-- Whether a link that receives an address as its text also gets it as its
  target. -/
  href : Bool := true
  jsx : Bool := false
  /-- Other names of attributes in component markup; a doubled shorthand has `*`
  behind its name. -/
  jsxAttributeNames : List (String × String) :=
    [("class", "className"), ("class*", "styleName"), ("for", "htmlFor")]
  /-- What expressions in component markup are members of, by the same names. -/
  jsxValuePrefix : List (String × String) := [("class*", "styles")]
  bem : BemOptions := {}
  deriving DecidableEq, Repr

namespace Options

/-- Whether a list has a name in any ASCII letter case. -/
def lists (names : List String) (name : String) : Bool :=
  names.any (Text.equalIgnoringAsciiCase · name)

def isInline (o : Options) (name : String) : Bool := lists o.inlineElements name

def isBooleanAttribute (o : Options) (name : String) : Bool :=
  lists o.booleanAttributes name

end Options

end Scaffold

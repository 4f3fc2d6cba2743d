import Scaffold.Component
import Scaffold.Component.Selectors
import Scaffold.Expansion
/-!
The markup that a component returns: component syntax expanded from an
abbreviation, with a default where there is nothing to expand.
-/
namespace Scaffold.Component

/-- The markup of a component with the selectors that it uses. -/
structure Body where
  markup : String
  selectors : Selectors
  deriving DecidableEq, Repr

namespace Body

def ofMarkup (markup : String) : Body := ⟨markup, Selectors.ofMarkup markup⟩

/-- Shown where no structure is given, and where it cannot be expanded. -/
def standIn : Body := ofMarkup "<div className=\"container\"></div>"

/-- The number of characters up to the end of a comment, of which the opening is
behind. -/
def commentLength? : List Char → Option Nat
  | [] => none
  | c :: cs =>
    if "-->".toList.isPrefixOf (c :: cs) then some 3
    else (commentLength? cs).map (· + 1)

/-- A text without its comments, of which the next `skip` characters belong to
one. A comment that does not end is none. -/
def withoutCommentsFrom (skip : Nat) : List Char → List Char
  | [] => []
  | c :: cs =>
    match skip with
    | skip + 1 => withoutCommentsFrom skip cs
    | 0 =>
      if "<!--".toList.isPrefixOf (c :: cs) then
        match commentLength? (cs.drop 3) with
        | some length => withoutCommentsFrom (length + 3) cs
        | none => c :: withoutCommentsFrom 0 cs
      else c :: withoutCommentsFrom 0 cs

def withoutComments (markup : String) : String :=
  String.ofList (withoutCommentsFrom 0 markup.toList)

/-- The configuration that bodies are expanded with: component syntax, elements
closed by a slash, and two spaces for a tab as the indentation. -/
def config (c : Config) : Config :=
  { c with
    dialect := .jsx
    options := { c.options with
      jsx := true
      selfClosing := if c.options.selfClosing = .html then .xhtml
        else c.options.selfClosing
      indent := if c.options.indent = "\t" then "  " else c.options.indent } }

/-- The body of an abbreviation, with the warnings of its expansion. -/
def ofAbbreviation (c : Config) (source : String) : Body × List String :=
  let source := Text.trim source
  if source.isEmpty then (standIn, [])
  else
    match expand (config c) source with
    | .ok e => (ofMarkup (Text.trim (withoutComments e.result)), e.warnings)
    | .error _ => (standIn, [])

/-- The body that a request asks for, with the warnings of its expansion. -/
def ofStructure (c : Config) : Structure → Body × List String
  | .abbreviation source => ofAbbreviation c source
  | .markup source => (ofMarkup (Text.trim source), [])

/-- Whether the program answers with a body, and does not stop at the number of
a field. -/
def isAnswered (c : Config) : Structure → Bool
  | .abbreviation source => (expand? (config c) (Text.trim source)).isSome
  | .markup _ => true

end Body

end Scaffold.Component

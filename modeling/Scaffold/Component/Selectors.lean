import Scaffold.Text.Blank
import Scaffold.Text.Word
/-!
The classes and ids that markup uses, as far as its text shows them: the
double-quoted values behind their names, wherever such a name stands at the
beginning of a word.  So `data-id` gives an id as well.
-/
namespace Scaffold.Component

/-- The selectors of some markup, each once, in the order of their first
occurrence. -/
structure Selectors where
  classes : List String
  ids : List String
  deriving DecidableEq, Repr

namespace Selectors

/-- What stands in front of the value of a class attribute. -/
def classOpenings : List (List Char) :=
  ["className=\"".toList, "class=\"".toList]

/-- What stands in front of the value of an id attribute. -/
def idOpenings : List (List Char) := ["id=\"".toList]

/-- The value of an attribute that starts at the beginning of the text, with the
length of the whole attribute. The value has a character at least, and a quote
closes it. -/
def attributeAt? (openings : List (List Char)) (cs : List Char) :
    Option (List Char × Nat) := do
  let opening ← openings.find? (·.isPrefixOf cs)
  let rest := cs.drop opening.length
  let value := rest.takeWhile (· != '"')
  if value.isEmpty || (rest.drop value.length).isEmpty then none
  else some (value, opening.length + value.length + 1)

/-- The values of the attributes in a text, of which the next `skip` characters
belong to one that is already read. An attribute does not start behind a word
character. -/
def valuesFrom (openings : List (List Char)) (skip : Nat) (behindWord : Bool) :
    List Char → List (List Char)
  | [] => []
  | c :: cs =>
    match skip with
    | skip + 1 => valuesFrom openings skip (Text.isWordChar c) cs
    | 0 =>
      match if behindWord then none else attributeAt? openings (c :: cs) with
      | some (value, length) =>
        value :: valuesFrom openings (length - 1) (Text.isWordChar c) cs
      | none => valuesFrom openings 0 (Text.isWordChar c) cs

/-- The values of the attributes in a text. -/
def values (openings : List (List Char)) (markup : String) : List String :=
  (valuesFrom openings 0 false markup.toList).map String.ofList

/-- The selectors that markup uses. -/
def ofMarkup (markup : String) : Selectors where
  classes := ((values classOpenings markup).flatMap Text.words).eraseDups
  ids := (values idOpenings markup).eraseDups

end Selectors

end Scaffold.Component

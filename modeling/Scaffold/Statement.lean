import Scaffold.Token
/-!
Statements: an abbreviation as elements and groups of elements, nested as its
operators say. Names and values are still tokens, since what they come to
depends on the repetition they stand in.
-/
namespace Scaffold

/-- An attribute as written. -/
structure AttributeTokens where
  name : Option (List Token) := none
  value : Option (List Token) := none
  /-- The value was given in braces behind a shorthand operator. -/
  expression : Bool := false
  /-- The shorthand operator was doubled. -/
  multiple : Bool := false
  deriving DecidableEq, Repr

/-- All that is written about an element but its children. -/
structure ElementTokens where
  name : Option (List Token) := none
  attributes : Option (List AttributeTokens) := none
  value : Option (List Token) := none
  repeater : Option Repeater := none
  selfClosing : Bool := false
  deriving DecidableEq, Repr

namespace ElementTokens

/-- Nothing was written: there is no element here. -/
def isEmpty (e : ElementTokens) : Bool :=
  e.name.isNone && e.attributes.isNone && e.value.isNone

def addAttributes (e : ElementTokens) (more : List AttributeTokens) :
    ElementTokens :=
  { e with attributes := some (e.attributes.getD [] ++ more) }

end ElementTokens

/-- An element or a group, with the statements below it. -/
inductive Statement
  | element (element : ElementTokens) (children : List Statement)
  | group (children : List Statement) (repeater : Option Repeater)

namespace Statement

def children : Statement → List Statement
  | element _ children => children
  | group children _ => children

def repeater : Statement → Option Repeater
  | element e _ => e.repeater
  | group _ r => r

/-- The statement with one more child behind those it has. -/
def append : Statement → Statement → Statement
  | element e children, child => element e (children ++ [child])
  | group children r, child => group (children ++ [child]) r

end Statement

end Scaffold

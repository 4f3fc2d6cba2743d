import Scaffold.Config
import Scaffold.Node
import Scaffold.Node.Address
import Scaffold.Statement
/-!
Unrolls statements into nodes. A repeated statement becomes copies that stand
side by side; in each copy running numbers count, references to variables are
filled in, and the replacement text lands where the abbreviation has a place for
it, in the copies of an implicit repeater, or else in the last node. One budget
of iterations is shared by all repeaters: when it is used up, every repeater
that is running or still to come makes the copy it is at, and no further one.
-/
namespace Scaffold.Unrolling

/-- What unrolling depends on. -/
structure Settings where
  text : Option ReplacementText := none
  bindings : List (String × String) := []
  maxRepeat : Nat := defaultMaxRepeat
  /-- Whether a link that receives an address as its text also gets it as its
  target. -/
  href : Bool := false

namespace Settings

def ofConfig (c : Config) : Settings :=
  ⟨c.text, c.bindings, c.maxRepeat, c.options.href⟩

/-- The value of a variable; an unknown one stands for its name. -/
def valueOf (s : Settings) (name : String) : String :=
  (s.bindings.lookup name).getD name

/-- The replacement text for the copy at a position, or all of it. -/
def textAt (s : Settings) (position : Option Nat) : String :=
  match s.text, position with
  | none, _ => ""
  | some (.single text), _ => text
  | some (.items items), none => Text.join "\n" items
  | some (.items items), some i =>
    (((ReplacementText.items items).parts[i]?).or items[i]?).getD ""

def copies (s : Settings) (r : Repeater) : Nat :=
  match s.text with
  | some (.items items) =>
    if r.implicit then (ReplacementText.items items).parts.length
    else max r.count 1
  | _ => max r.count 1

end Settings

/-- How far unrolling has come. -/
structure Progress where
  /-- Replacement text has landed somewhere. -/
  inserted : Bool := false
  /-- Replacement text was asked for. -/
  consumed : Bool := false
  /-- The iterations that are left. -/
  budget : Nat
  /-- The iterations that were made. -/
  iterations : Nat := 0
  deriving DecidableEq, Repr

namespace Progress

def tick (p : Progress) : Progress :=
  { p with budget := p.budget - 1, iterations := p.iterations + 1 }

/-- The progress after tokens were written out, which may have a place for the
text. -/
def reading (p : Progress) (tokens : List Token) : Progress :=
  if tokens.any (·.kind == .textPlaceholder) then
    { p with inserted := true, consumed := true }
  else p

def readingOption (p : Progress) (tokens : Option (List Token)) : Progress :=
  p.reading (tokens.getD [])

def readingAttributes (p : Progress) (attributes : List AttributeTokens) :
    Progress :=
  attributes.foldl (fun p a => (p.readingOption a.name).readingOption a.value) p

end Progress

/-- The copies that a place stands in, the innermost first. -/
abbrev Chain := List Repeat

/-- The copy some levels further out than the innermost, or the outermost there
is. -/
def ancestor? (chain : Chain) (levels : Nat) : Option Repeat :=
  match chain with
  | [] => none
  | _ :: outer =>
    if levels = 0 then none else outer[min levels outer.length - 1]?

/-- The value of a running number: it counts the copies from its base up or
down, and with levels also the rounds of a repeater further out. It stops at the
largest word. -/
def numberValue (n : Numbering) : Chain → Nat
  | [] => 1
  | copy :: outer =>
    let step := if n.reverse then copy.count - (copy.value + 1) else copy.value
    let value := Numeral.saturate (n.base + step)
    match ancestor? (copy :: outer) n.levels with
    | some parent =>
      Numeral.saturate (value + Numeral.saturate (copy.count * parent.value))
    | none => value

/-- The text of a field as it was written. -/
def fieldText (index : Nat) (name : String) : String :=
  if name.isEmpty then "$\x7b" ++ Numeral.text index ++ "\x7d"
  else "$\x7b" ++ Numeral.text index ++ ":" ++ name ++ "\x7d"

/-- The text of one token within copies. -/
def tokenText (s : Settings) (chain : Chain) (t : Token) : String :=
  match t.kind with
  | .literal text => text
  | .quote single => if single then "'" else "\""
  | .bracket kind opens => (kind.toChar opens).toString
  | .operator op => op.toChar.toString
  | .blank text => text
  | .repeater r => if r.implicit then "*" else "*" ++ Numeral.text r.count
  | .field (some index) name => fieldText index name
  | .field none name => s.valueOf name
  | .textPlaceholder => s.textAt ((chain.find? (·.implicit)).map (·.value))
  | .number n => Numeral.padded n.width (numberValue n chain)

def nameText (s : Settings) (chain : Chain) (tokens : List Token) : String :=
  String.join (tokens.map (tokenText s chain))

/-- Text pieces and fields of tokens, where `text` is the text in front that is
not yet a piece. -/
def piecesFrom (s : Settings) (chain : Chain) (text : String) :
    List Token → List Piece
  | [] => if text.isEmpty then [] else [.text text]
  | t :: ts =>
    match t.kind with
    | .field (some index) name =>
      let rest := .field index name :: piecesFrom s chain "" ts
      if text.isEmpty then rest else .text text :: rest
    | _ => piecesFrom s chain (text ++ tokenText s chain t) ts

def pieces (s : Settings) (chain : Chain) (tokens : List Token) : List Piece :=
  piecesFrom s chain "" tokens

/-- Tokens without a last one that passes the test. -/
def dropLastIf (test : Token → Bool) (tokens : List Token) : List Token :=
  match tokens.getLast? with
  | some t => if test t then tokens.dropLast else tokens
  | none => tokens

/-- The tokens of a value within its quotes or braces, and what these say of its
kind. -/
def unwrapValue (plain : ValueKind) : List Token → List Token × ValueKind
  | [] => ([], plain)
  | t :: ts =>
    match t.kind with
    | .quote single =>
      (dropLastIf (·.isQuote single) ts, if single then .singleQuoted
        else .doubleQuoted)
    | .bracket .expression true =>
      (dropLastIf (·.isBracket .expression false) ts, .expression)
    | _ => (t :: ts, plain)

/-- A name without a leading exclamation mark, and whether there was one. -/
def stripImplied : List Char → List Char × Bool
  | '!' :: cs => (cs, true)
  | cs => (cs, false)

/-- A name without a final dot, and whether there was one. -/
def stripBoolean (cs : List Char) : List Char × Bool :=
  if cs.getLast? = some '.' then (cs.dropLast, true) else (cs, false)

/-- The attribute that is written as the given tokens. -/
def attributeOf (s : Settings) (chain : Chain) (a : AttributeTokens) :
    Attribute :=
  let name := a.name.map fun tokens => (nameText s chain tokens).toList
  let (name, implied) := match name with
    | some cs => let (cs, b) := stripImplied cs; (some cs, b)
    | none => (none, false)
  let (name, boolean) := match name with
    | some cs => let (cs, b) := stripBoolean cs; (some cs, b)
    | none => (none, false)
  let plain : ValueKind := if a.expression then .expression else .raw
  let (value, kind) := match a.value with
    | some tokens =>
      let (inner, kind) := unwrapValue plain tokens
      (some (pieces s chain inner), kind)
    | none => (none, plain)
  { name := name.map String.ofList, value, boolean, implied, kind,
    multiple := a.multiple }

/-- The tag of an element, without its attributes. -/
def bareTag (s : Settings) (chain : Chain) (copy : Option Repeat)
    (e : ElementTokens) : Tag :=
  { name := e.name.map (nameText s chain)
    value := e.value.map (pieces s chain)
    copy
    selfClosing := e.selfClosing }

/-- The nodes of one copy of an element. A plain text without a field holds no
children: they come behind it. -/
def elementNodes (s : Settings) (chain : Chain) (copy : Option Repeat)
    (e : ElementTokens) (children : Progress → List Node × Progress)
    (p : Progress) : List Node × Progress :=
  let p := (p.readingOption e.name).readingOption e.value
  let (below, p) := children p
  let tag := { bareTag s chain copy e with
    attributes := e.attributes.map (·.map (attributeOf s chain)) }
  let p := p.readingAttributes (e.attributes.getD [])
  if tag.isText && tag.value.isSome && !tag.hasField then
    (⟨tag, []⟩ :: below, p)
  else ([⟨tag, below⟩], p)

/-- A node as part of a copy, unless it already is a copy itself. -/
def inCopy (copy : Option Repeat) (n : Node) : Node :=
  { n with tag := { n.tag with copy := n.tag.copy.or copy } }

def fillDeepest (text : String) (nodes : List Node) : List Node :=
  Node.modifyLast (fun n => { n with tag := n.tag.appendText text }) nodes

/-- Makes the last `left` of `count` copies, as long as the budget allows. -/
def copiesFrom (s : Settings) (chain : Chain) (implicit : Bool) (count : Nat)
    (once : Option Repeat → Chain → Progress → List Node × Progress) :
    Nat → Progress → List Node × Progress
  | 0, p => ([], p)
  | left + 1, p =>
    let copy : Repeat := ⟨count, count - (left + 1), implicit⟩
    let (nodes, p) := once (some copy) (copy :: chain) p
    let fills := implicit && !p.inserted && !nodes.isEmpty
    let nodes :=
      if fills then fillDeepest (s.textAt (some copy.value)) nodes else nodes
    let p := (if fills then { p with consumed := true } else p).tick
    if p.budget = 0 then (nodes, p)
    else
      let (more, p) := copiesFrom s chain implicit count once left p
      (nodes ++ more, p)

/-- All copies of a statement, or the statement alone if nothing repeats it. -/
def repeated (s : Settings) (chain : Chain) (r : Option Repeater)
    (once : Option Repeat → Chain → Progress → List Node × Progress)
    (p : Progress) : List Node × Progress :=
  match r with
  | none => once none chain p
  | some r =>
    let count := s.copies r
    let (nodes, p) := copiesFrom s chain r.implicit count once count p
    (nodes, if r.implicit then { p with inserted := true } else p)

mutual

/-- The nodes of a statement within copies. -/
def statementNodes (s : Settings) (chain : Chain) :
    Statement → Progress → List Node × Progress
  | .element e children, p =>
    repeated s chain e.repeater
      (fun copy chain p =>
        elementNodes s chain copy e (statementsNodes s chain children) p) p
  | .group children r, p =>
    repeated s chain r
      (fun copy chain p =>
        let (nodes, p) := statementsNodes s chain children p
        (nodes.map (inCopy copy), p)) p

def statementsNodes (s : Settings) (chain : Chain) :
    List Statement → Progress → List Node × Progress
  | [], p => ([], p)
  | t :: ts, p =>
    let (nodes, p) := statementNodes s chain t p
    let (more, p) := statementsNodes s chain ts p
    (nodes ++ more, p)

end

/-- A link's tag with its target filled in from a text, where it has none. -/
def withTarget (tag : Tag) (text : String) : Tag :=
  match Address.target? text with
  | none => tag
  | some target =>
    match tag.find? "href" with
    | some a =>
      if a.hasValue then tag
      else tag.modify "href" ({ · with value := some [.text target] })
    | none =>
      { tag with attributes := some (tag.attributeList ++
        [{ name := some "href", value := some [.text target],
           kind := .doubleQuoted }]) }

/-- The nodes with a text that found no place of its own in the deepest last
node. -/
def placeText (s : Settings) (text : String) (nodes : List Node) : List Node :=
  Node.modifyLast (fun n =>
    let tag := n.tag.appendText text
    { n with
      tag := if s.href && tag.name == some "a" then withTarget tag text
        else tag }) nodes

/-- Nodes, and the number of repeater iterations that made them. -/
structure Outcome where
  nodes : List Node
  iterations : Nat

end Scaffold.Unrolling

namespace Scaffold

/-- Unrolls statements, and counts the iterations. -/
def unroll (s : Unrolling.Settings) (statements : List Statement) :
    Unrolling.Outcome :=
  let (nodes, p) :=
    Unrolling.statementsNodes s [] statements { budget := max s.maxRepeat 1 }
  match s.text with
  | some text =>
    ⟨if p.consumed then nodes else Unrolling.placeText s text.whole nodes,
      p.iterations⟩
  | none => ⟨nodes, p.iterations⟩

end Scaffold

import Scaffold.Markup.Page
import Scaffold.Text.Blank
/-!
Writes nodes as an outline, in which elements nest by indentation. The three
outline dialects differ in their punctuation only.
-/
namespace Scaffold.Markup

/-- The punctuation of an outline dialect. -/
structure OutlineStyle where
  beforeName : String := ""
  beforeAttributes : String := ""
  afterAttributes : String := ""
  betweenAttributes : String := ""
  beforeTextLine : String := ""
  afterTextLine : String := ""
  /-- The value of a boolean attribute without one. -/
  booleanValue : Option String := none
  selfClosing : String := ""
  deriving DecidableEq, Repr

namespace OutlineStyle

def pug (o : Options) : OutlineStyle where
  beforeAttributes := "("
  afterAttributes := ")"
  betweenAttributes := ", "
  beforeTextLine := "| "
  selfClosing := if o.selfClosing = .xml then "/" else ""

def haml : OutlineStyle where
  beforeName := "%"
  beforeAttributes := "("
  afterAttributes := ")"
  betweenAttributes := " "
  afterTextLine := " |"
  booleanValue := some "true"
  selfClosing := "/"

def slim : OutlineStyle where
  beforeAttributes := " "
  betweenAttributes := " "
  beforeTextLine := "| "
  selfClosing := "/"

end OutlineStyle

namespace Outline

/-- Attributes that are written as shorthands. -/
def isShorthand (a : Attribute) : Bool := a.hasName "class" || a.hasName "id"

/-- A piece of a class value with dots between its words. -/
def dotted : Piece → Piece
  | .text s => .text (Text.join "." (Text.words s))
  | .field index name => .field index name

/-- Writes a class or an identifier as a shorthand, if it has a value. -/
def writeShorthand (c : Config) (p : Page) (a : Attribute) : Page :=
  match a.value with
  | none => p
  | some value =>
    if a.hasName "class" then (p.string c ".").pieces c (value.map dotted)
    else (p.string c "#").pieces c value

/-- Writes an attribute with its value. -/
def writeAttribute (c : Config) (style : OutlineStyle) (p : Page)
    (a : Attribute) : Page :=
  let p := p.string c (c.options.attributeCase.apply (a.name.getD ""))
  if isBoolean c.options a && a.value.isNone then
    match style.booleanValue with
    | some value =>
      if c.options.compactBoolean then p else p.string c ("=" ++ value)
    | none => p
  else
    let (before, after) := quotes c.options a
    ((p.string c ("=" ++ before)).pieces c (a.value.getD caret)).string c after

def writeAttributeList (c : Config) (style : OutlineStyle) (p : Page) :
    List Attribute → Page
  | [] => p
  | [a] => writeAttribute c style p a
  | a :: rest =>
    writeAttributeList c style
      ((writeAttribute c style p a).string c style.betweenAttributes) rest

/-- Writes attributes and what stands around them. -/
def writeAttributes (c : Config) (style : OutlineStyle)
    (attributes : List Attribute) (p : Page) : Page :=
  if attributes.isEmpty then p
  else
    (writeAttributeList c style (p.string c style.beforeAttributes)
      attributes).string c style.afterAttributes

/-- The number of characters of a line of a value. -/
def lineLength (line : List Piece) : Nat :=
  line.foldl (fun n piece => n + piece.plain.length) 0

/-- Writes one of several lines of a value, filled up to a common width if the
style ends lines. -/
def writeLine (c : Config) (style : OutlineStyle) (width : Nat) (p : Page)
    (line : List Piece) : Page :=
  let p := p.freshLine c
  let p :=
    if style.beforeTextLine.isEmpty then p else p.push c style.beforeTextLine
  let p := p.pieces c line
  if style.afterTextLine.isEmpty then p
  else
    let fill := String.ofList (List.replicate (width - lineLength line) ' ')
    (p.push c fill).push c style.afterTextLine

/-- The value that a node shows. A leaf without one has a place for it, where
that shows. -/
def shownValue (h : Hooks) (t : Tag) (hasChildren : Bool) :
    Option (List Piece) :=
  match t.value with
  | some value => some value
  | none => if hasChildren || caretIsEmpty h then none else some caret

/-- Writes the value of a node: behind its name if it is one line, else on lines
of its own one level further in. -/
def writeValue (c : Config) (style : OutlineStyle) (t : Tag)
    (value : List Piece) (p : Page) : Page :=
  match valueLines value with
  | [] | [_] => (if t.isText then p else p.push c " ").pieces c value
  | several =>
    let width := (several.map lineLength).foldl max 0
    (several.foldl (writeLine c style width) (p.shift 1)).shift (-1)

/-- Writes what stands on the line of a node in front of its value. A `div` with
a shorthand goes without its name. -/
def writeHead (c : Config) (style : OutlineStyle) (t : Tag) (p : Page) : Page :=
  let (shorthands, others) := t.attributeList.partition isShorthand
  let p :=
    match t.name with
    | some name =>
      if name = "div" ∧ !shorthands.isEmpty then p
      else p.string c (style.beforeName ++ name)
    | none => p
  writeAttributes c style (others.filter isWritten)
    (shorthands.foldl (writeShorthand c) p)

mutual

/-- Writes a node; the first one at the top and texts go on in their line. -/
def writeNode (c : Config) (style : OutlineStyle) (isTop isFirst : Bool) :
    Node → Page → Page
  | ⟨tag, children⟩, p =>
    let step : Int := if isTop then 0 else 1
    let p := p.shift step
    let p := if (isTop && isFirst) || tag.isText then p else p.freshLine c
    let p := writeHead c style tag p
    let p :=
      if tag.selfClosing && tag.value.isNone && children.isEmpty then
        p.string c style.selfClosing
      else
        let p :=
          match shownValue c.hooks tag (!children.isEmpty) with
          | some value => writeValue c style tag value p
          | none => p
        writeNodes c style false true children p
    p.shift (-step)

def writeNodes (c : Config) (style : OutlineStyle) (isTop isFirst : Bool) :
    List Node → Page → Page
  | [], p => p
  | n :: ns, p =>
    writeNodes c style isTop false ns (writeNode c style isTop isFirst n p)

end

/-- The outline of a tree. -/
def page (c : Config) (style : OutlineStyle) (nodes : List Node) : Page :=
  writeNodes c style true true nodes {}

end Outline

end Scaffold.Markup

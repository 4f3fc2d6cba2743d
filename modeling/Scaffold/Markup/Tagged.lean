import Scaffold.Markup.Page
import Scaffold.Text.Blank
import Scaffold.Text.Word
/-!
Writes nodes as markup with opening and closing tags. Whether a node begins a
line depends on its place among the nodes around it: block elements do, texts
and inline elements only where they meet blocks, are many, or hold such nodes.
-/
namespace Scaffold.Markup.Tagged

/-- The tags around a node: of the node above it, and of those beside it, the
nearest first. -/
structure Place where
  parent : Option Tag := none
  before : List Tag := []
  after : List Tag := []

def isTextTag (t : Option Tag) : Bool := (t.map Tag.isText).getD false

/-- Whether a node can stand in a line with others: an inline element or a
text. -/
def isInline (o : Options) (t : Tag) : Bool :=
  match t.name with
  | some name => o.isInline name
  | none => t.value.isSome && t.attributes.isNone

def isInlineElement (o : Options) (t : Tag) : Bool :=
  (t.name.map o.isInline).getD false

/-- Whether a text begins a line of its own: it stands beside another text, has
several lines, or has nodes around which it is written. -/
def isLooseText (place : Place) (t : Tag) (hasChildren : Bool) : Bool :=
  t.isText && (isTextTag place.before.head? || isTextTag place.after.head?
    || (t.value.getD []).any spansLines || (t.hasField && hasChildren))

/-- Whether a node stands in a run of inline elements that is long enough to be
broken up. -/
def isInLongRun (o : Options) (place : Place) : Bool :=
  let run (tags : List Tag) : Nat := (tags.takeWhile (isInlineElement o)).length
  0 < o.inlineBreak && o.inlineBreak ≤ 1 + run place.before + run place.after

/-- Whether a node meets a block element in front, or anywhere if it is the
first. -/
def meetsBlock (o : Options) (place : Place) : Bool :=
  match place.before with
  | [] => place.after.any (!isInline o ·)
  | previous :: _ => !isInline o previous

/-- Whether a node without regard to those below it begins a line; there is no
answer if these decide. -/
def beginsLine? (o : Options) (place : Place) (t : Tag) (hasChildren : Bool) :
    Option Bool :=
  if !o.format then some false
  else if place.before.isEmpty && place.parent.isNone then some false
  else if isTextTag place.parent && place.before.isEmpty &&
    place.after.isEmpty then some false
  else if isLooseText place t hasChildren then some true
  else if !isInline o t then some true
  else if meetsBlock o place || isInLongRun o place then some true
  else none

mutual

def beginsLine (o : Options) (place : Place) : Node → Bool
  | ⟨tag, children⟩ =>
    (beginsLine? o place tag (!children.isEmpty)).getD
      (anyBeginsLine o tag [] children)

/-- Whether any of the nodes below a tag, in front of which others stand, begins
a line. -/
def anyBeginsLine (o : Options) (parent : Tag) (before : List Tag) :
    List Node → Bool
  | [] => false
  | n :: ns =>
    beginsLine o ⟨some parent, before, ns.map (·.tag)⟩ n
      || anyBeginsLine o parent (n.tag :: before) ns

end

/-- How much further in the nodes below another one stand. -/
def indentStep (o : Options) : Option Tag → Int
  | none => 0
  | some t =>
    if t.isText || (t.name.map (Options.lists o.formatSkip)).getD false then 0
    else 1

/-- The value that an attribute name has in a map, in which names with a star
are for doubled shorthands. -/
def renamed? (map : List (String × String)) (name : String) (multiple : Bool) :
    Option String :=
  (if multiple then map.lookup (name ++ "*") else none).or (map.lookup name)

/-- Whether a text can be written as a member behind a dot. -/
def isMemberName (s : String) : Bool :=
  match s.toList with
  | c :: cs =>
    (c.isAlpha || c == '_' || c == '$') && cs.all fun c =>
      Text.isWordChar c || c == '$'
  | [] => false

/-- An attribute as it is written: its name, its value, and what stands around
the value. -/
structure Form where
  name : String
  value : Option (List Piece)
  quotes : String × String

/-- The form of an attribute, before its name's letter case. In component markup
names are replaced, and classes may become members of a style object. -/
def baseForm (o : Options) (a : Attribute) (name : String) : Form :=
  let plain : Form := ⟨name, a.value, quotes o a⟩
  if !o.jsx then plain
  else
    let braces := ("\x7b", "\x7d")
    let form := { plain with
      name := (renamed? o.jsxAttributeNames name a.multiple).getD name
      quotes := if a.multiple then braces else plain.quotes }
    match renamed? o.jsxValuePrefix name a.multiple, a.value with
    | some object, some [.text s] =>
      let member := if isMemberName s then object ++ "." ++ s
        else object ++ "['" ++ s ++ "']"
      { form with value := some [.text member], quotes := braces }
    | _, _ => form

/-- The form of an attribute. One without a value gets its own name as the value
if it is boolean and not written compactly, and a place for a value if it is not
boolean. -/
def form (o : Options) (a : Attribute) (name : String) : Form :=
  let base := baseForm o a name
  let name := o.attributeCase.apply base.name
  let value :=
    if base.value.isSome then base.value
    else if isBoolean o a then
      (if o.compactBoolean then none else some [.text name])
    else some caret
  { base with name, value }

/-- Writes an attribute, if it has a name. -/
def writeAttribute (c : Config) (p : Page) (a : Attribute) : Page :=
  match a.name with
  | none => p
  | some name =>
    let f := form c.options a name
    let p := p.string c (" " ++ f.name)
    match f.value with
    | some value =>
      ((p.string c ("=" ++ f.quotes.1)).pieces c value).string c f.quotes.2
    | none =>
      if c.options.selfClosing = .html then p
      else p.string c ("=" ++ f.quotes.1 ++ f.quotes.2)

/-- The element whose opening tag a text begins with. -/
def openingTag? (s : String) : Option String :=
  match s.toList with
  | '<' :: cs =>
    let isNameChar (ch : Char) : Bool :=
      Text.isWordChar ch || ch == '-' || ch == ':'
    match cs.takeWhile isNameChar, cs.dropWhile isNameChar with
    | name@(_ :: _), c :: _ =>
      if Text.isBlank c || c == '>' then some (String.ofList name) else none
    | _, _ => none
  | _ => none

/-- Whether a value begins with the tag of a block element. -/
def beginsWithBlock (o : Options) : List Piece → Bool
  | .text s :: _ => ((openingTag? s).map (!o.isInline ·)).getD false
  | _ => false

/-- Writes an element's own value. -/
def writeValue (c : Config) (value : List Piece) (p : Page) : Page :=
  p.onOwnLines c (value.any spansLines || beginsWithBlock c.options value)
    (·.pieces c value)

/-- Writes the place for the content of an empty element. -/
def writeCaret (c : Config) (name : String) (p : Page) : Page :=
  p.onOwnLines c (c.options.formatLeafNode ||
    Options.lists c.options.formatForce name) (·.pieces c caret)

/-- The pieces of a value in front of its first field, and those behind it. -/
def cutAtField? : List Piece → Option (List Piece × List Piece)
  | [] => none
  | .field _ _ :: ps => some ([], ps)
  | p :: ps =>
    (cutAtField? ps).map fun (before, behind) => (p :: before, behind)

/-- Writes what comes behind nodes in a value around them; a text behind nodes
with lines of their own loses the blanks in front. -/
def writeBehind (c : Config) (brokeLine : Bool) (behind : List Piece)
    (p : Page) : Page :=
  match brokeLine, behind with
  | true, .text s :: rest =>
    let p := p.string c (String.ofList (Text.dropBlanks s.toList))
    if rest.isEmpty then p else p.pieces c rest
  | _, [] => p
  | _, ps => p.pieces c ps

/-- Writes the nodes below a tag at the first field of its value, if there are
any and there is such a place. -/
def wrapAround? (c : Config) (t : Tag) (hasChildren : Bool)
    (below : Page → Page) (p : Page) : Option Page :=
  if !hasChildren then none
  else
    match cutAtField? (t.value.getD []) with
    | none => none
    | some (before, behind) =>
      let p := p.pieces c before
      let wrapped := below p
      some (writeBehind c (wrapped.out.line != p.out.line) behind wrapped)

/-- What makes an element without content its own end. -/
def selfClosingMark : SelfClosing → String
  | .html => ""
  | .xhtml => " /"
  | .xml => "/"

/-- Writes a named element with the nodes below it. -/
def writeElement (c : Config) (t : Tag) (rawName : String) (hasChildren : Bool)
    (below : Page → Page) (p : Page) : Page :=
  let name := c.options.tagCase.apply rawName
  let p := p.string c ("<" ++ name)
  let p := (t.attributeList.filter isWritten).foldl (writeAttribute c) p
  if t.selfClosing && !hasChildren && t.value.isNone then
    p.string c (selfClosingMark c.options.selfClosing ++ ">")
  else
    let p := p.string c ">"
    let p :=
      match wrapAround? c t hasChildren below p with
      | some p => p
      | none =>
        match t.value with
        | some value => below (writeValue c value p)
        | none => if hasChildren then below p else writeCaret c rawName p
    p.string c ("</" ++ name ++ ">")

/-- Writes a nameless node with the nodes below it; nothing without a value. -/
def writeText (c : Config) (t : Tag) (hasChildren : Bool) (below : Page → Page)
    (p : Page) : Page :=
  match wrapAround? c t hasChildren below p with
  | some p => p
  | none =>
    match t.value with
    | some value => below (p.pieces c value)
    | none => p

/-- Ends the lines that nodes began: behind the last one of those below a node,
a line begins for what closes the node. -/
def finish (c : Config) (place : Place) (begins : Bool) (p : Page) : Page :=
  if begins && place.after.isEmpty && place.parent.isSome then
    p.newline c (p.out.level - if isTextTag place.parent then 0 else 1)
  else p

mutual

/-- Writes a node at its place. -/
def writeNode (c : Config) (place : Place) : Node → Page → Page
  | ⟨tag, children⟩, p =>
    let begins := (beginsLine? c.options place tag (!children.isEmpty)).getD
      (anyBeginsLine c.options tag [] children)
    let step := indentStep c.options place.parent
    let p := p.shift step
    let p := if begins then p.freshLine c else p
    let below := writeNodes c (some tag) [] children
    let p :=
      match tag.name with
      | some name => writeElement c tag name (!children.isEmpty) below p
      | none => writeText c tag (!children.isEmpty) below p
    (finish c place begins p).shift (-step)

/-- Writes nodes one behind the other, where others stand in front of them. -/
def writeNodes (c : Config) (parent : Option Tag) (before : List Tag) :
    List Node → Page → Page
  | [], p => p
  | n :: ns, p =>
    writeNodes c parent (n.tag :: before) ns
      (writeNode c ⟨parent, before, ns.map (·.tag)⟩ n p)

end

def page (c : Config) (nodes : List Node) : Page :=
  writeNodes c none [] nodes {}

end Scaffold.Markup.Tagged

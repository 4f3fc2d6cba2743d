import Scaffold.Node
import Scaffold.Numeral
import Scaffold.Options
import Scaffold.Text.Blank
import Scaffold.Text.Split
import Scaffold.Lorem
/-!
Block, element and modifier class names. Within a block `card`, the class
`-title` becomes `card__title`, and `_active` a modifier of the class in front
of it; every further leading dash or underscore looks for the block one node
further up.
-/
namespace Scaffold.Bem

/-- The class names of a node, and the block that they name. -/
structure Classes where
  names : List String := []
  block : Option String := none
  deriving DecidableEq, Repr

/-- A letter or digit of a class name part. -/
def isPartChar (c : Char) : Bool := Lorem.isFoldedLetter c || c.isDigit

/-- A class name that begins with marks: their number, the name behind them, and
what is left. -/
structure Marked where
  depth : Nat
  name : List Char
  rest : List Char

/-- Reads marks and behind them a name, which begins with a letter or digit and
goes on with characters that pass the test. -/
def marked? (mark : Char) (test : Char → Bool) (cs : List Char) :
    Option Marked :=
  let marks := cs.takeWhile (· == mark)
  match marks, cs.drop marks.length with
  | _ :: _, c :: rest =>
    if isPartChar c then
      some ⟨marks.length, (c :: rest).takeWhile test,
        (c :: rest).dropWhile test⟩
    else none
  | _, _ => none

/-- An element: dashes and a name. -/
def element? (cs : List Char) : Option Marked :=
  marked? '-' (fun c => isPartChar c || c == '-') cs

/-- A modifier: underscores and a name. -/
def modifier? (cs : List Char) : Option Marked :=
  marked? '_' (fun c => isPartChar c || c == '-' || c == '_') cs

def isElementOrModifier (name : String) : Bool :=
  (element? name.toList).isSome || (modifier? name.toList).isSome

def isBlock (name : String) : Bool :=
  match name.toList with
  | c :: _ => Lorem.isFoldedLetter c
  | [] => false

/-- Whether a name begins with a single letter and a dash. -/
def isDashedBlock (name : String) : Bool :=
  match name.toList with
  | c :: '-' :: _ => Lorem.isFoldedLetter c
  | _ => false

/-- The block among class names: the first name that looks like one in front of
all elements and modifiers, and rather one with a single letter before a
dash. -/
def blockOf (names : List String) : Option String :=
  let candidates := names.takeWhile (!isElementOrModifier ·)
  (candidates.find? isDashedBlock).or (candidates.find? isBlock)

/-- A name cut in front of its first underscore, unless it begins with a
mark. -/
def splitModifier (name : String) : List String :=
  let cs := name.toList
  let head := cs.takeWhile (· != '_')
  if head.isEmpty || head.head? == some '-' || head.length =
    cs.length then [name]
  else [String.ofList head, String.ofList (cs.drop head.length)]

/-- The names without empty ones, each at its first place only. -/
def unique (names : List String) : List String :=
  names.foldl (fun seen name => if name = "" ∨ name ∈ seen then seen
    else seen ++ [name]) []

/-- The block some levels up a path of nodes, the innermost first, or else one
further up; from the top on if there are not so many levels. -/
def blockAt (path : List Classes) (depth : Nat) : String :=
  ((path.drop (min (depth - 1) (path.length - 1))).findSome? (·.block)).getD ""

/-- The names that a class stands for on a path. -/
def expandClass (options : BemOptions) (path : List Classes) (name : String) :
    List String :=
  let cs := name.toList
  let (lead, names, rest) :=
    match element? cs with
    | some e =>
      let full :=
        blockAt path e.depth ++ options.element ++ String.ofList e.name
      (some full, [full], e.rest)
    | none => (none, [], cs)
  match modifier? rest with
  | some m =>
    let modify (base : String) : String :=
      base ++ options.modifier ++ String.ofList m.name
    match lead with
    | some base => names ++ [modify base]
    | none =>
      let base := blockAt path m.depth
      names ++ [base, modify base]
  | none => if rest = cs then names ++ [name] else names

/-- The classes that the class attribute of a tag has. -/
def written (tag : Tag) : List String :=
  match tag.find? "class" with
  | some a => Text.words a.valueText
  | none => []

/-- The tag with other classes, unless there are none. -/
def withClasses (tag : Tag) (names : List String) : Tag :=
  if names.isEmpty then tag
  else tag.modify "class"
    ({ · with value := some [.text (Text.join " " names)] })

/-- The classes of a tag with modifiers apart from their blocks. -/
def classesOf (tag : Tag) : Classes :=
  let names := unique ((written tag).flatMap splitModifier)
  ⟨names, blockOf names⟩

/-- Expands the classes of a tag below nodes with the given classes, the
innermost first, and says what the tag's own classes are to the nodes below. -/
def expand (options : BemOptions) (above : List Classes) (tag : Tag) :
    Tag × Classes :=
  let own := classesOf tag
  let split := withClasses tag own.names
  (withClasses split
    (unique (own.names.flatMap (expandClass options (own :: above)))), own)

end Scaffold.Bem

/-!
Nodes: an abbreviation as the tree of elements and texts that is written out in
the end.
-/
namespace Scaffold

/-- A piece of a value: text, or a numbered place for the reader to fill in. -/
inductive Piece
  | text (text : String)
  | field (index : Nat) (name : String)
  deriving DecidableEq, Repr

namespace Piece

/-- A piece as plain text; a field is its name. -/
def plain : Piece → String
  | text s => s
  | field _ name => name

def isField : Piece → Bool
  | field _ _ => true
  | text _ => false

def plainText (pieces : List Piece) : String := String.join (pieces.map plain)

theorem plainText_append (ps qs : List Piece) :
    plainText (ps ++ qs) = plainText ps ++ plainText qs := by
  rw [plainText, List.map_append, String.join_append]
  rfl

theorem plainText_singleton (p : Piece) : plainText [p] = p.plain := by
  simp [plainText]

/-- Pieces with a text behind them, which becomes part of a final text piece. -/
def appendText (pieces : List Piece) (s : String) : List Piece :=
  match pieces.getLast? with
  | some (text last) => pieces.dropLast ++ [text (last ++ s)]
  | _ => pieces ++ [text s]

end Piece

/-- What surrounds an attribute's value. -/
inductive ValueKind
  | raw
  | singleQuoted
  | doubleQuoted
  | expression
  deriving DecidableEq, Repr

/-- An attribute of a node. -/
structure Attribute where
  name : Option String := none
  value : Option (List Piece) := none
  /-- Means the same with and without a value. -/
  boolean : Bool := false
  /-- Not written as long as it has no value. -/
  implied : Bool := false
  kind : ValueKind := .raw
  /-- Its shorthand operator was doubled. -/
  multiple : Bool := false
  deriving DecidableEq, Repr

namespace Attribute

def hasName (a : Attribute) (name : String) : Bool := a.name == some name

def hasValue (a : Attribute) : Bool := !(a.value.getD []).isEmpty

def valueText (a : Attribute) : String := Piece.plainText (a.value.getD [])

/-- Without a value, or with a value of empty texts and nameless fields only. -/
def isVacant (a : Attribute) : Bool := (a.value.getD []).all (·.plain == "")

end Attribute

/-- Which copy of a repeated statement a node is. -/
structure Repeat where
  count : Nat
  value : Nat
  implicit : Bool
  deriving DecidableEq, Repr

/-- All of a node but its children. -/
structure Tag where
  name : Option String := none
  value : Option (List Piece) := none
  attributes : Option (List Attribute) := none
  copy : Option Repeat := none
  selfClosing : Bool := false
  deriving DecidableEq, Repr

namespace Tag

/-- The attributes, none if none were written. -/
def attributeList (t : Tag) : List Attribute := t.attributes.getD []

def hasValue (t : Tag) : Bool := !(t.value.getD []).isEmpty

/-- Without name and attributes: plain text, or text around other nodes. -/
def isText (t : Tag) : Bool := t.name.isNone && t.attributes.isNone

def hasField (t : Tag) : Bool := (t.value.getD []).any Piece.isField

def valueText (t : Tag) : String := Piece.plainText (t.value.getD [])

def find? (t : Tag) (name : String) : Option Attribute :=
  t.attributeList.find? (·.hasName name)

def modifyFirst (name : String) (f : Attribute → Attribute) :
    List Attribute → List Attribute
  | [] => []
  | a :: rest =>
    if a.hasName name then f a :: rest else a :: modifyFirst name f rest

def modify (t : Tag) (name : String) (f : Attribute → Attribute) : Tag :=
  { t with attributes := t.attributes.map (modifyFirst name f) }

def appendText (t : Tag) (s : String) : Tag :=
  { t with value := some (Piece.appendText (t.value.getD []) s) }

end Tag

/-- A node: a tag and the nodes below it. -/
structure Node where
  tag : Tag
  children : List Node := []

namespace Node

instance : Inhabited Node := ⟨⟨{}, []⟩⟩

mutual

/-- The node with the last node on the way down through last children
changed. -/
def modifyDeepest (f : Node → Node) : Node → Node
  | ⟨tag, []⟩ => f ⟨tag, []⟩
  | ⟨tag, c :: cs⟩ => ⟨tag, modifyLast f (c :: cs)⟩

def modifyLast (f : Node → Node) : List Node → List Node
  | [] => []
  | [c] => [modifyDeepest f c]
  | c :: d :: ds => c :: modifyLast f (d :: ds)

end

mutual

/-- The last node on the way down through last children. -/
def deepest : Node → Node
  | ⟨tag, children⟩ => deepestOf ⟨tag, children⟩ children

/-- The deepest last node of the last of some nodes, or the given one if there
are none. -/
def deepestOf (node : Node) : List Node → Node
  | [] => node
  | [c] => deepest c
  | _ :: d :: ds => deepestOf node (d :: ds)

end

end Node

end Scaffold

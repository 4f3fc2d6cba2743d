import Scaffold.Node
/-!
Merges attributes of one name. The values of classes are put together; of any
other attribute one declaration decides the value, and it keeps the place of the
first one.
-/
namespace Scaffold.Attribute

/-- Pieces with one more behind them; texts that meet become one. -/
def pushPiece (pieces : List Piece) : Piece → List Piece
  | .text s => Piece.appendText pieces s
  | .field index name => pieces ++ [.field index name]

/-- Two values in a row with a space between them. -/
def joinValues : Option (List Piece) → Option (List Piece) → Option (List Piece)
  | some first, some second =>
    let first := if first.isEmpty then first else pushPiece first (.text " ")
    some (second.foldl pushPiece first)
  | first, second => first.or second

/-- What an earlier and a later declaration of one name come to. The later one's
value and kind hold, or with `keepFirst` those of the earlier one; class values
are put together. -/
def combine (keepFirst : Bool) (earlier later : Attribute) : Attribute :=
  if earlier.hasName "class" then
    { earlier with value := joinValues earlier.value later.value }
  else
    { earlier with
      value := if keepFirst then earlier.value else later.value
      kind := if keepFirst then earlier.kind else later.kind
      implied := earlier.implied || later.implied
      boolean := earlier.boolean || later.boolean
      multiple := earlier.multiple || later.multiple }

/-- Merged attributes with one more declaration. Those without a name stay
apart. -/
def mergeInto (keepFirst : Bool) (merged : List Attribute) (a : Attribute) :
    List Attribute :=
  match a.name with
  | some name =>
    if merged.any (·.hasName name) then
      Tag.modifyFirst name (combine keepFirst · a) merged
    else merged ++ [a]
  | none => merged ++ [a]

/-- The attributes with all declarations of a name merged. -/
def merge (keepFirst : Bool) (attributes : List Attribute) : List Attribute :=
  attributes.foldl (mergeInto keepFirst) []

end Scaffold.Attribute

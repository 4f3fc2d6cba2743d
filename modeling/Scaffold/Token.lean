import Scaffold.Numeral
/-!
Tokens of an abbreviation: what a run of characters means, and where in the
source it stands.
-/
namespace Scaffold

/-- The operators: they shape the tree, start a shorthand attribute, assign or
close. -/
inductive Operator
  | child
  | sibling
  | climb
  | className
  | identifier
  | equal
  | close
  deriving DecidableEq, Repr

namespace Operator

/-- The operator that a character stands for. -/
def ofChar? : Char → Option Operator
  | '>' => some child
  | '+' => some sibling
  | '^' => some climb
  | '.' => some className
  | '#' => some identifier
  | '/' => some close
  | '=' => some equal
  | _ => none

/-- The character of an operator. -/
def toChar : Operator → Char
  | child => '>'
  | sibling => '+'
  | climb => '^'
  | className => '.'
  | identifier => '#'
  | equal => '='
  | close => '/'

@[simp] theorem ofChar?_toChar (op : Operator) :
    ofChar? op.toChar = some op := by
  cases op <;> rfl

theorem toChar_of_ofChar? {c : Char} {op : Operator} (h : ofChar? c = some op) :
    op.toChar = c := by
  rw [ofChar?.eq_def] at h
  split at h <;> cases h <;> rfl

end Operator

/-- The three pairs of brackets: around statements, attributes and text. -/
inductive BracketKind
  | group
  | attributes
  | expression
  deriving DecidableEq, Repr

namespace BracketKind

/-- The pair that a bracket character belongs to, and whether it opens. -/
def ofChar? : Char → Option (BracketKind × Bool)
  | '(' => some (group, true)
  | ')' => some (group, false)
  | '[' => some (attributes, true)
  | ']' => some (attributes, false)
  | '{' => some (expression, true)
  | '}' => some (expression, false)
  | _ => none

def toChar : BracketKind → Bool → Char
  | group, true => '('
  | group, false => ')'
  | attributes, true => '['
  | attributes, false => ']'
  | expression, true => '{'
  | expression, false => '}'

@[simp] theorem ofChar?_toChar (kind : BracketKind) (opens : Bool) :
    ofChar? (kind.toChar opens) = some (kind, opens) := by
  cases kind <;> cases opens <;> rfl

theorem toChar_of_ofChar? {c : Char} {kind : BracketKind} {opens : Bool}
    (h : ofChar? c = some (kind, opens)) : kind.toChar opens = c := by
  rw [ofChar?.eq_def] at h
  split at h <;> cases h <;> rfl

end BracketKind

/-- How often a statement is repeated: a written count, or one copy per
replacement text. -/
structure Repeater where
  count : Nat
  implicit : Bool
  deriving DecidableEq, Repr

/-- A running number: digits to fill, direction, first value, and how many
repeaters further out it also counts. -/
structure Numbering where
  width : Nat
  reverse : Bool := false
  base : Nat := 1
  levels : Nat := 0
  deriving DecidableEq, Repr

/-- The meaning of a token. -/
inductive TokenKind
  | literal (text : String)
  | operator (op : Operator)
  | bracket (kind : BracketKind) (opens : Bool)
  | quote (single : Bool)
  | blank (text : String)
  | repeater (repeater : Repeater)
  | textPlaceholder
  | number (numbering : Numbering)
  | field (index : Option Nat) (name : String)
  deriving DecidableEq, Repr

/-- A token and the characters of the source from `start` up to `stop` that it
stands for. -/
structure Token where
  kind : TokenKind
  start : Nat := 0
  stop : Nat := 0
  deriving DecidableEq, Repr

namespace Token

/-- A literal that stands for no characters of the source. -/
def implied (text : String) : Token := ⟨.literal text, 0, 0⟩

def isOperator (t : Token) (op : Operator) : Bool := t.kind == .operator op

def isBracket (t : Token) (kind : BracketKind) (opens : Bool) : Bool :=
  t.kind == .bracket kind opens

def isQuote (t : Token) (single : Bool) : Bool := t.kind == .quote single

def isBlank (t : Token) : Bool :=
  match t.kind with
  | .blank _ => true
  | _ => false

def repeater? (t : Token) : Option Repeater :=
  match t.kind with
  | .repeater r => some r
  | _ => none

/-- A literal that begins with an upper-case ASCII letter, as component names
do. -/
def isCapitalized (t : Token) : Bool :=
  match t.kind with
  | .literal text => (text.toList.head?.map Char.isUpper).getD false
  | _ => false

/-- A token that an element's name can consist of. -/
def isNamePart (t : Token) : Bool :=
  match t.kind with
  | .literal _ | .number _ | .textPlaceholder => true
  | _ => false

/-- The word for a token's kind in messages. -/
def kindName (t : Token) : String :=
  match t.kind with
  | .literal _ => "Literal"
  | .operator _ => "Operator"
  | .bracket _ _ => "Bracket"
  | .quote _ => "Quote"
  | .blank _ => "WhiteSpace"
  | .repeater _ => "Repeater"
  | .textPlaceholder => "RepeaterPlaceholder"
  | .number _ => "RepeaterNumber"
  | .field _ _ => "Field"

end Token

end Scaffold

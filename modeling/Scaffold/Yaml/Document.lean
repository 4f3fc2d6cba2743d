import Scaffold.Decimal
import Scaffold.Yaml.Node
/-!
Texts of one document, read as data. What an unquoted scalar means can be left
open, for a reader that knows the wanted types, or decided by its form: nothing,
a truth value, a number, or else a text.
-/
namespace Scaffold.Yaml

/-- The versions of the format that a directive may name. -/
def knownVersions : List (Nat × Nat) := [(1, 1), (1, 2)]

/-- Reads the directives in front of a document, behind some handles and perhaps
a version. -/
def directives (handles : Handles) (versioned : Bool) : List Token →
    Except Fault (Handles × List Token)
  | ⟨.version major minor, line⟩ :: rest =>
    if versioned || !knownVersions.contains (major, minor) then
      .error ⟨.directive, line + 1⟩
    else directives handles true rest
  | ⟨.tagHandle handle start, line⟩ :: rest =>
    if handles.any (·.1 == handle) then .error ⟨.directive, line + 1⟩
    else directives ((handle, start) :: handles) versioned rest
  | tokens => .ok (handles, tokens)

/-- Whether a token can follow the mark of a document that is empty. -/
def endsDocument : TokenKind → Bool
  | .version _ _ | .tagHandle _ _ | .documentStart | .documentEnd => true
  | _ => false

def faultAt (tokens : List Token) (p : Problem) : Fault :=
  ⟨p, (tokens.head?.map (·.line + 1)).getD 0⟩

def rootBehindMark (handles : Handles) (tokens : List Token) :
    Except Fault (Node × List Token) :=
  if (tokens.head?.map (endsDocument ·.kind)).getD true then
    .ok (Node.empty, tokens)
  else do
    let (read, _) ← (Node.ofTokens handles true false tokens).run []
    return read

/-- Reads the root of a document, which needs a mark only if there are
directives. -/
def rootOfTokens (tokens : List Token) : Except Fault (Node × List Token) := do
  let (own, rest) ← directives [] false tokens
  let handles := own ++ defaultHandles
  match rest with
  | ⟨.documentStart, _⟩ :: rest => rootBehindMark handles rest
  | _ =>
    if rest.length < tokens.length then throw (faultAt rest .directive)
    let (read, _) ← (Node.ofTokens handles true false rest).run []
    return read

def Node.ofDocument (tokens : List Token) : Except Fault (Option Node) := do
  if tokens.isEmpty then return none
  let (node, rest) ← rootOfTokens tokens
  match rest.dropWhile (·.kind == .documentEnd) with
  | [] => return some node
  | rest => throw (faultAt rest .secondDocument)

/-! ### Words -/

/-- The beginning of the tags that the format itself defines. -/
def coreTag (name : String) : String := "tag:yaml.org,2002:" ++ name

/-- The name of a tag that the format does not define, which starts with a
mark. -/
def localTag? (tag : Option String) : Option String := do
  match (← tag).toList with
  | '!' :: name => some (String.ofList name)
  | _ => none

def tagWith (tag : Option String) (d : Data) : Data :=
  match localTag? tag with
  | some name => .tagged name d
  | none => d

mutual

def Node.words : Node → Data
  | .scalar tag plain text =>
    tagWith tag (if plain && tag != some (coreTag "str") then .word text
      else .text text)
  | .sequence tag items => tagWith tag (.list (wordsOfItems items))
  | .mapping tag entries => tagWith tag (.table (wordsOfEntries entries))

def wordsOfItems : List Node → List Data
  | [] => []
  | item :: items => item.words :: wordsOfItems items

def wordsOfEntries : List (Node × Node) → List (Data × Data)
  | [] => []
  | (key, value) :: entries =>
    (key.words, value.words) :: wordsOfEntries entries

end

/-! ### Values -/

/-- Whether a word has only digits, more than one and a zero first, behind a
sign or none; such a word is a text. -/
def isPaddedNumber (s : String) : Bool :=
  let digits := match s.toList with
    | '-' :: ds => ds
    | '+' :: ds => ds
    | ds => ds
  1 < digits.length && digits.head? == some '0' && digits.all Char.isDigit

/-- The amount behind a minus sign that a word means. -/
def negative? (s : String) : Option Nat :=
  match s.toList with
  | '-' :: digits => Data.natOfWordChars? digits
  | _ => none

/-- The number with a point, an exponent or a name that a word means. -/
def float? (s : String) : Option Float :=
  if s ∈ [".inf", ".Inf", ".INF", "+.inf", "+.Inf", "+.INF"] then some (1 / 0)
  else if s ∈ ["-.inf", "-.Inf", "-.INF"] then some (-1 / 0)
  else if s ∈ [".nan", ".NaN", ".NAN"] then some (0 / 0)
  else (Decimal.ofChars? s.toList).filter (·.isFinite)

/-- The bounds of whole numbers that can be told from floating-point ones but
not held. -/
def wideBound : Nat := Nat.pow 2 128

/-- The whole number that a word means, unless it is too wide to be one. -/
def int? (s : String) : Except Problem (Option Int) :=
  match Data.natOfWord? s, negative? s with
  | some n, _ =>
    if n ≤ Numeral.wordMax then .ok (some n)
    else if n < wideBound then .error .number
    else .ok none
  | none, some n =>
    if n ≤ Nat.pow 2 63 then .ok (some (-n))
    else if n ≤ wideBound / 2 then .error .number
    else .ok none
  | none, none => .ok none

/-- What the form of a word says that it is. -/
def decide (s : String) : Except Problem Data := do
  if s.isEmpty || s ∈ Data.nullWords then return .null
  if let some b := Data.boolOfWord? s then return .bool b
  if let some n ← int? s then return .int n
  if isPaddedNumber s then return .text s
  return match float? s with
    | some x => .float x
    | none => .text s

/-- A scalar with a tag of the format, which says what it has to be. -/
def decideAs (tag s : String) : Except Problem Data := do
  let orFail (d : Option Data) : Except Problem Data :=
    match d with
    | some d => .ok d
    | none => .error .scalarOfTag
  if tag == coreTag "bool" then orFail ((Data.boolOfWord? s).map .bool)
  else if tag == coreTag "int" then orFail ((← int? s).map .int)
  else if tag == coreTag "float" then orFail ((float? s).map .float)
  else if tag == coreTag "null" then
    orFail (if s ∈ Data.nullWords then some .null else none)
  else return .text s

mutual

/-- Whether two values are the same key. -/
def same : Data → Data → Bool
  | .null, .null => true
  | .bool a, .bool b => a == b
  | .int a, .int b => a == b
  | .float a, .float b => a == b || (a.isNaN && b.isNaN)
  | .text a, .text b => a == b
  | .word a, .word b => a == b
  | .list as, .list bs => sameItems as bs
  | .table as, .table bs => sameEntries as bs
  | .tagged s a, .tagged t b => s == t && same a b
  | _, _ => false

def sameItems : List Data → List Data → Bool
  | [], [] => true
  | a :: as, b :: bs => same a b && sameItems as bs
  | _, _ => false

def sameEntries : List (Data × Data) → List (Data × Data) → Bool
  | [], [] => true
  | (k, v) :: as, (l, w) :: bs => same k l && same v w && sameEntries as bs
  | _, _ => false

end

/-- The greatest number of collections around a value. -/
def maxDepth : Nat := 128

def tagChecked (tag : Option String) (d : Data) : Except Problem Data :=
  match localTag? tag with
  | some "" => .error .scalarOfTag
  | some name => .ok (.tagged name d)
  | none => .ok d

mutual

/-- The node as data with unquoted scalars decided, where `depth` more
collections are possible. -/
def Node.values (depth : Nat) : Node → Except Problem Data
  | .scalar tag plain text =>
    match localTag? tag, tag with
    | some _, _ | none, none => do
      tagChecked tag (← if plain then decide text else .ok (.text text))
    | none, some tag => decideAs tag text
  | .sequence tag items =>
    match depth with
    | 0 => .error .tooDeep
    | depth + 1 => do tagChecked tag (.list (← valuesOfItems depth items))
  | .mapping tag entries =>
    match depth with
    | 0 => .error .tooDeep
    | depth + 1 =>
      do tagChecked tag (.table (← valuesOfEntries depth [] entries))

def valuesOfItems (depth : Nat) : List Node → Except Problem (List Data)
  | [] => .ok []
  | item :: items => do
    let d ← item.values depth
    return d :: (← valuesOfItems depth items)

/-- The entries of a mapping behind entries with some keys, in reverse, which
may not come again. -/
def valuesOfEntries (depth : Nat) (keys : List Data) : List (Node × Node) →
    Except Problem (List (Data × Data))
  | [] => .ok []
  | (key, value) :: entries => do
    let k ← key.values depth
    if keys.any (same k) then throw .duplicateKey
    let v ← value.values depth
    return (k, v) :: (← valuesOfEntries depth (k :: keys) entries)

end

/-! ### Documents -/

def root (text : String) : Except Fault (Option Node) :=
  do Node.ofDocument (← tokens text)

/-- A text as data with unquoted scalars left open. A text without a document is
an open empty scalar. -/
def words (text : String) : Except Fault Data :=
  do return ((← root text).getD Node.empty).words

/-- A text as data with unquoted scalars decided. -/
def values (text : String) : Except Fault Data := do
  match ((← root text).getD Node.empty).values maxDepth with
  | .ok d => return d
  | .error p => throw ⟨p, 1⟩

end Scaffold.Yaml

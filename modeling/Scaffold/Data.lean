import Scaffold.Numeral
import Scaffold.Text.Split
/-!
Data as the formats of settings and manifests hold it, and the readings of it as
the types that are wanted. Some formats leave open what an unquoted word is
until its type is known; such words are kept apart here, and each reading
decides for itself.
-/
namespace Scaffold

/-- A value of a data format. -/
inductive Data
  | null
  | bool (b : Bool)
  | int (n : Int)
  | float (x : Float)
  | text (s : String)
  /-- An unquoted word of a format that lets the wanted type decide what it
  is. -/
  | word (s : String)
  | list (items : List Data)
  | table (entries : List (Data × Data))
  /-- A value with an explicit tag. -/
  | tagged (tag : String) (value : Data)
  deriving Inhabited

namespace Data

/-- The words that mean nothing. -/
def nullWords : List String := ["null", "Null", "NULL", "~"]

def trueWords : List String := ["true", "True", "TRUE"]

def falseWords : List String := ["false", "False", "FALSE"]

/-- The truth value that a word means. -/
def boolOfWord? (s : String) : Option Bool :=
  if s ∈ trueWords then some true else if s ∈ falseWords then
    some false else none

/-- The digit that a character is in a base of at most sixteen. -/
def digit? (base : Nat) (c : Char) : Option Nat :=
  let n :=
    if c.isDigit then c.toNat - '0'.toNat
    else if 'a' ≤ c ∧ c ≤ 'f' then c.toNat - 'a'.toNat + 10
    else if 'A' ≤ c ∧ c ≤ 'F' then c.toNat - 'A'.toNat + 10
    else 99
  if n < base then some n else none

/-- The value of digits in a base, of which there must be one at least. -/
def natOfDigits? (base : Nat) (cs : List Char) : Option Nat :=
  if cs.isEmpty then none
  else cs.foldlM (fun n c => (digit? base c).map (base * n + ·)) 0

/-- Digits with a mark of their base in front, or decimal digits without leading
zeros. -/
def natOfWordChars? : List Char → Option Nat
  | '0' :: 'x' :: cs => natOfDigits? 16 cs
  | '0' :: 'o' :: cs => natOfDigits? 8 cs
  | '0' :: 'b' :: cs => natOfDigits? 2 cs
  | '0' :: _ :: _ => none
  | cs => natOfDigits? 10 cs

/-- The number that a word means, if it is not negative. A sign may stand in
front. -/
def natOfWord? (s : String) : Option Nat :=
  match s.toList with
  | '+' :: cs => natOfWordChars? cs
  | '-' :: cs => (natOfWordChars? cs).filter (· = 0)
  | cs => natOfWordChars? cs

/-- The formats that data come from, as far as their readings differ. -/
inductive Format
  | json
  | toml
  /-- A format of which the unquoted words are still undecided. -/
  | words
  /-- The same format once its words are decided. -/
  | values
  deriving DecidableEq, Repr

namespace Format

/-- Whether a list of values can stand for a record with its fields in order. -/
def isPositional : Format → Bool
  | json | toml => true
  | words | values => false

end Format

/-- The value without its tags. -/
def untag : Data → Data
  | tagged _ d => untag d
  | d => d

/-- Whether the value stands for an empty list or an empty table. -/
def isVoid (f : Format) : Data → Bool
  | null => f = .values
  | word s => s.isEmpty
  | _ => false

def asText? (d : Data) : Option String :=
  match d.untag with
  | text s | word s => some s
  | _ => none

/-- The value as a truth value. -/
def asBool? (d : Data) : Option Bool :=
  match d.untag with
  | bool b => some b
  | word s => boolOfWord? s
  | _ => none

/-- The value as a count that fits a word. -/
def asCount? (d : Data) : Option Nat :=
  match d.untag with
  | int n => if 0 ≤ n ∧ n.toNat ≤ Numeral.wordMax then some n.toNat else none
  | word s => (natOfWord? s).filter (· ≤ Numeral.wordMax)
  | _ => none

def asList? (f : Format) (d : Data) : Option (List Data) :=
  match d.untag with
  | list items => some items
  | d => if d.isVoid f then some [] else none

/-- The value as a list of which every item is read. -/
def asListOf? {α : Type} (f : Format) (read : Data → Option α) (d : Data) :
    Option (List α) := do
  (← d.asList? f).mapM read

def asTable? (f : Format) (d : Data) : Option (List (Data × Data)) :=
  match d.untag with
  | table entries => some entries
  | d => if d.isVoid f then some [] else none

/-- The value that is read, unless there is nothing. -/
def asOption? {α : Type} (read : Data → Option α) : Data → Option (Option α)
  | null => some none
  | word s =>
    if s = "" ∨ s ∈ nullWords then some none else (read (word s)).map some
  | d => (read d).map some

/-- Whether a value adds nothing to a name that it stands beside. -/
def addsNothing (f : Format) : Data → Bool
  | null => f != .toml
  | word s => s = "" || s ∈ nullWords
  | list [] | table [] => f = .toml
  | _ => false

/-- The name that the value has among alternatives: a text or a tag, or the only
key of a table in the formats without tags. -/
def choiceName? (f : Format) : Data → Option String
  | text s | word s => some s
  | tagged tag d => if d.addsNothing f then some tag else none
  | table [(text s, d)] =>
    if f.isPositional && d.addsNothing f then some s else none
  | _ => none

def asChoice? {α : Type} (f : Format) (name : α → String) (all : List α)
    (d : Data) : Option α :=
  (d.choiceName? f).bind fun s => all.find? (name · == s)

/-- A table of texts, where a later entry of a name replaces an earlier one. -/
def asTextMap? (f : Format) (d : Data) : Option (List (String × String)) := do
  (← d.asTable? f).foldlM (fun map (k, v) => do
    let k ← k.asText?
    let v ← v.asText?
    return if map.any (·.1 == k) then map.map fun e => if e.1 == k then
      (k, v) else e
      else map ++ [(k, v)]) []

/-- The values of named fields among entries. An entry of another name does not
matter, but no name may occur twice, and every key must be a text. -/
def fieldsOf? (names : List String) (entries : List (Data × Data)) :
    Option (List (Option Data)) := do
  let entries ← entries.mapM fun (k, v) => (k.asText?).map (·, v)
  names.mapM fun name =>
    match entries.filter (·.1 == name) with
    | [] => some none
    | [(_, v)] => some (some v)
    | _ => none

/-- The values of named fields of a record. A list stands for a record where the
format admits that; it may be shorter than the record only if `short`. -/
def asRecord? (f : Format) (short : Bool) (names : List String) (d : Data) :
    Option (List (Option Data)) :=
  match d.untag with
  | table entries => fieldsOf? names entries
  | list items =>
    if f.isPositional && (items.length == names.length || short &&
      items.length < names.length) then
      some (items.map some ++ List.replicate (names.length - items.length) none)
    else none
  | d => if d.isVoid f then some (names.map fun _ => none) else none

/-- The value of a field that is read, or its default if it is not there. -/
def field? {α : Type} (read : Data → Option α) (fallback : α) :
    Option Data → Option α
  | none => some fallback
  | some d => read d

end Data

end Scaffold

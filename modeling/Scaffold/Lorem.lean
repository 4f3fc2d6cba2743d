import Scaffold.Lorem.Vocabulary
import Scaffold.Numeral
import Scaffold.Random.Source
import Scaffold.Text.Case
import Scaffold.Text.Split
import Scaffold.Text.Word
/-!
Placeholder text: sentences of words drawn from a vocabulary, with commas and
punctuation, and the element names that ask for it, such as `lorem`, `lorem10`,
`lorem5-15` and `loremru20`.
-/
namespace Scaffold.Lorem

open Scaffold.Random

/-- The number of words if a name does not say. -/
def defaultWordCount : Nat := 30

/-- The attempts that one draw may take. -/
def attempts : Nat := Nat.pow 2 32

/-- What a name asks for: a language suffix, and the fewest and the most
words. -/
structure Request where
  suffix : String
  fewest : Nat
  most : Nat
  deriving DecidableEq, Repr

/-- A character that a Latin letter pattern takes in any letter case; the long s
and the Kelvin sign fold to Latin letters. -/
def isFoldedLetter (c : Char) : Bool := c.isAlpha || c == 'ſ' || c == '\u212a'

/-- The number that a run of digits gives, if they are ASCII digits and fit a
word. -/
def count? (digits : List Char) : Option Nat :=
  if digits.isEmpty || !digits.all Char.isDigit then none
  else Numeral.ofDigits? digits

/-- The number of words behind a dash, where anything follows. -/
def upperBound? : List Char → Option (Option Nat)
  | [] => some none
  | '-' :: cs => if cs.all Text.isDecimalDigit then some (count? cs) else none
  | _ => none

/-- What an element name asks for, if it asks for placeholder text. -/
def Request.ofName? (name : String) : Option Request :=
  let cs := name.toList
  if (cs.take 5).map Char.toLower != "lorem".toList then none
  else
    let suffix := (cs.drop 5).takeWhile isFoldedLetter
    let rest := (cs.drop 5).drop suffix.length
    let digits := rest.takeWhile Text.isDecimalDigit
    match upperBound? (rest.drop digits.length) with
    | none => none
    | some most =>
      let fewest := match count? digits with
        | some n => max n 1
        | none => defaultWordCount
      let most := (most.map (max · fewest)).getD fewest
      some ⟨Text.lowercase (String.ofList suffix), fewest, most⟩

section

variable {σ : Type} [Source σ] (tries : Nat)

/-- Draws places below `size` that are all different, until there are `count`,
the first of which are `picked`. -/
def pick (size count : Nat) (picked : List Nat) : Nat → Draw σ (List Nat)
  | 0, _ => none
  | left + 1, s =>
    if count ≤ picked.length then some (picked, s)
    else
      match between tries 0 size s with
      | none => none
      | some (i, s) =>
        pick size count (if i ∈ picked then picked else picked ++ [i]) left s

/-- Draws different words, as many as asked for or as there are. -/
def sample (words : List String) (count : Nat) :
    Draw σ (List String) := fun s =>
  match pick tries words.length (min count words.length) [] tries s with
  | some (places, s) => some (places.filterMap (words[·]?), s)
  | none => none

/-- The least and the first excluded number of commas that are tried in a
sentence. -/
def commaRange (length : Nat) : Nat × Nat :=
  if length ≤ 3 then (1, 4)
  else if length ≤ 6 then (0, 1)
  else if length ≤ 12 then (0, 2)
  else (1, 4)

/-- A word with a comma, of which it gets only one. -/
def withComma (word : String) : String :=
  if word.toList.getLast? = some ',' then word else word ++ ","

/-- Puts commas behind drawn words, never behind the last one. -/
def commasFrom : Nat → List String → Draw σ (List String)
  | 0, words, s => some (words, s)
  | n + 1, words, s =>
    match between tries 0 (words.length - 1) s with
    | none => none
    | some (i, s) => commasFrom n (words.modify i withComma) s

/-- Puts a drawn number of commas into a sentence of two words or more. -/
def insertCommas (words : List String) : Draw σ (List String) := fun s =>
  if words.length < 2 then some (words, s)
  else
    let (least, stop) := commaRange words.length
    match between tries least stop s with
    | none => none
    | some (n, s) => commasFrom tries n words s

/-- A word with its first letter in upper case. -/
def capitalize (word : String) : String :=
  match word.toList with
  | c :: cs => String.ofList (Text.upperChar c ++ cs)
  | [] => ""

/-- The words of a sentence in a row, the first one capitalized. -/
def phrase : List String → String
  | [] => ""
  | w :: ws => Text.join " " (capitalize w :: ws)

/-- What sentences end with; a full stop twice as often as the others. -/
def endings : List String := ["?", "!", ".", "."]

/-- A sentence of words with commas, which ends with a full stop or a drawn
mark. -/
def sentence (fullStop : Bool) (words : List String) : Draw σ String := fun s =>
  match insertCommas tries words s with
  | none => none
  | some (words, s) =>
    if fullStop then some (phrase words ++ ".", s)
    else
      match between tries 0 endings.length s with
      | none => none
      | some (i, s) => some (phrase words ++ (endings[i]?).getD "", s)

/-- Drawn sentences of `count` words together. -/
def sentences (words : List String) (count : Nat) (s : σ) :
    Option (List String × σ) :=
  if count = 0 then some ([], s)
  else
    match between tries 2 30 s with
    | none => none
    | some (size, s) =>
      match sample tries words (min size count) s with
      | none => none
      | some ([], s) => some ([], s)
      | some (w :: ws, s) =>
        match sentence tries false (w :: ws) s with
        | none => none
        | some (text, s) =>
          match sentences words (count - (w :: ws).length) s with
          | none => none
          | some (more, s) => some (text :: more, s)
termination_by count
decreasing_by simp; omega

/-- Placeholder text of `count` words, which may begin with the vocabulary's
opening, with no more tries than given for each draw. -/
def paragraphWithin (v : Vocabulary) (count : Nat) (opens : Bool) :
    Draw σ String := fun s =>
  if opens && !v.opening.isEmpty then
    let first := v.opening.take count
    match sentence tries true first s with
    | none => none
    | some (text, s) =>
      match sentences tries v.words (count - first.length) s with
      | none => none
      | some (more, s) => some (Text.join " " (text :: more), s)
  else
    match sentences tries v.words count s with
    | none => none
    | some (texts, s) => some (Text.join " " texts, s)

/-- The text that is asked for, of a drawn number of words. -/
def Request.draw (request : Request) (opens : Bool) : Draw σ String := fun s =>
  match within tries request.fewest request.most s with
  | some (count, s) =>
    paragraphWithin tries (.ofSuffix request.suffix) count opens s
  | none => none

end

/-- Placeholder text of `count` words, which may begin with the vocabulary's
opening. -/
def paragraph {σ : Type} [Source σ] (v : Vocabulary) (count : Nat)
    (opens : Bool) : Draw σ String :=
  paragraphWithin attempts v count opens

end Scaffold.Lorem

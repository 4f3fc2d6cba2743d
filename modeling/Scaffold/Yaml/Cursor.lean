/-!
A place in the text of a document: what is still to be read, with the line and
the column, which decide what belongs together.
-/
namespace Scaffold.Yaml

/-- What can be wrong with the text of a document. -/
inductive Problem
  | forbiddenCharacter
  | misplacedEntry
  | misplacedKey
  | misplacedValue
  | keyWithoutValue
  | tabInIndentation
  | colonInFlow
  | openQuote
  | documentMarkInQuote
  | escape
  | blockHeader
  | anchorName
  | tagText
  | directive
  | strayCharacter
  | tagHandle
  | missingEntry
  | missingKey
  | missingSeparator
  | missingContent
  | unknownAlias
  | secondDocument
  | tooDeep
  | duplicateKey
  | number
  | scalarOfTag
  deriving DecidableEq, Repr

namespace Problem

/-- The wording of a problem. -/
def message : Problem → String
  | forbiddenCharacter => "a character that no document may hold"
  | misplacedEntry => "a sequence entry is not possible here"
  | misplacedKey => "a mapping key is not possible here"
  | misplacedValue => "a mapping value is not possible here"
  | keyWithoutValue => "a key without a colon"
  | tabInIndentation => "a tab in the indentation"
  | colonInFlow => "a colon in front of an indicator"
  | openQuote => "a quoted scalar that does not end"
  | documentMarkInQuote => "a document mark in a quoted scalar"
  | escape => "an escape that means nothing"
  | blockHeader => "text behind the indicator of a block scalar"
  | anchorName => "an anchor or alias without a proper name"
  | tagText => "a malformed tag"
  | directive => "a malformed directive"
  | strayCharacter => "a character that starts no token"
  | tagHandle => "a tag handle that no directive declares"
  | missingEntry => "a sequence without its next entry"
  | missingKey => "a mapping without its next key"
  | missingSeparator => "a flow collection without a comma or its end"
  | missingContent => "a node without content"
  | unknownAlias => "an alias of an unknown anchor"
  | secondDocument => "more than one document"
  | tooDeep => "collections nested too deeply"
  | duplicateKey => "a key that occurs twice"
  | number => "a number out of range"
  | scalarOfTag => "a scalar that is not what its tag says"

end Problem

def isBreak (c : Char) : Bool :=
  c == '\n' || c == '\r' || c == '\u0085' || c == '\u2028' || c == '\u2029'

/-- A space or a tab. -/
def isSpacing (c : Char) : Bool := c == ' ' || c == '\t'

/-- A character of names: an ASCII letter or digit, a hyphen or an
underscore. -/
def isNameChar (c : Char) : Bool := c.isAlphanum || c == '-' || c == '_'

/-- A character that a document may hold. -/
def isAllowed (c : Char) : Bool :=
  c == '\t' || c == '\n' || c == '\r' || (' ' ≤ c && c ≤ '~') ||
    c == '\u0085' ||
    ('\u00a0' ≤ c && c != '\ufffe' && c != '\uffff')

/-- The rest of a text and its place. -/
structure Cursor where
  rest : List Char
  index : Nat := 0
  line : Nat := 0
  column : Nat := 0
  deriving DecidableEq, Repr

namespace Cursor

/-- The character some places ahead. -/
def peek? (c : Cursor) (n : Nat) : Option Char := c.rest[n]?

/-- Whether the character some places ahead is this one. -/
def sees (c : Cursor) (n : Nat) (ch : Char) : Bool := c.peek? n == some ch

/-- Whether the character some places ahead passes the test; the end does
not. -/
def test (c : Cursor) (n : Nat) (p : Char → Bool) : Bool := (c.peek? n).any p

/-- Whether the text ends some places ahead, or a line or a blank. -/
def endsWord (c : Cursor) (n : Nat) : Bool :=
  (c.peek? n).all fun ch => isSpacing ch || isBreak ch

/-- Steps over characters of a line. -/
def skip (c : Cursor) (n : Nat) : Cursor :=
  { c with rest := c.rest.drop n, index := c.index + n, column := c.column + n }

/-- The next characters that pass the test, and the cursor behind them. -/
def takeWhile (c : Cursor) (p : Char → Bool) : List Char × Cursor :=
  let run := c.rest.takeWhile p
  (run, c.skip run.length)

/-- Steps over the next characters that pass the test. -/
def skipWhile (c : Cursor) (p : Char → Bool) : Cursor := (c.takeWhile p).2

/-- Steps over a line break, if there is one, and gives the character that it
stands for. -/
def readBreak (c : Cursor) : List Char × Cursor :=
  let next (n : Nat) : Cursor := ⟨c.rest.drop n, c.index + n, c.line + 1, 0⟩
  match c.rest with
  | '\r' :: '\n' :: _ => (['\n'], next 2)
  | ch :: _ =>
    if ch == '\u2028' || ch == '\u2029' then ([ch], next 1)
    else if isBreak ch then (['\n'], next 1)
    else ([], c)
  | [] => ([], c)

theorem length_skip (c : Cursor) (n : Nat) :
    (c.skip n).rest.length = c.rest.length - n := by
  simp [skip]

/-- Reading a break makes the rest shorter. -/
theorem length_readBreak_lt {c : Cursor} {ch : Char} {rest : List Char}
    (h : c.rest = ch :: rest) (hb : isBreak ch) :
    c.readBreak.2.rest.length < c.rest.length := by
  unfold readBreak
  split
  · next e => simp only [e, List.drop, List.length_cons]; omega
  · next e =>
    rw [h] at e
    obtain ⟨rfl, -⟩ := List.cons.inj e
    split <;> simp [h]
  · next e => simp [h] at e

/-- Steps over the rest of a line. -/
def skipLine (c : Cursor) : Cursor := c.skipWhile (!isBreak ·)

/-- Whether a mark of three characters starts the line. -/
def atMark (c : Cursor) (ch : Char) : Bool :=
  c.column == 0 && c.sees 0 ch && c.sees 1 ch && c.sees 2 ch && c.endsWord 3

/-- Whether a document starts or ends here. -/
def atDocumentMark (c : Cursor) : Bool := c.atMark '-' || c.atMark '.'

end Cursor

/-- What is wrong with a text, and the line it is in, counted from one. -/
structure Fault where
  problem : Problem
  line : Nat
  deriving DecidableEq, Repr

def Fault.message (f : Fault) : String :=
  f.problem.message ++ " in line " ++ toString f.line

def Cursor.fault (c : Cursor) (p : Problem) : Fault := ⟨p, c.line + 1⟩

end Scaffold.Yaml

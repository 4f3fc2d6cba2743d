import Scaffold.Yaml.Scalar
import Scaffold.Yaml.Token
/-!
Tokens from the text of a document. The columns of the open block collections
decide where the next ones open and close. What could turn out to be a key is
remembered until a colon says that it is.
-/
namespace Scaffold.Yaml

/-! ### Names, tags and directives -/

def anchorName (c : Cursor) : Except Fault (String × Cursor) :=
  let (name, after) := c.takeWhile isNameChar
  if name.isEmpty ||
    !(after.endsWord 0 || after.test 0 ("?:,]\x7d%@`".toList.contains ·)) then
    .error (c.fault .anchorName)
  else .ok (String.ofList name, after)

/-- A character of tags, apart from escapes. Verbatim tags admit some more. -/
def isTagChar (verbatim : Bool) (ch : Char) : Bool :=
  isNameChar ch || ";/?:@&=+$.!~*'()".toList.contains ch ||
    (verbatim && [',', '[', ']'].contains ch)

/-- The bytes that escapes in a tag stand for. -/
def tagBytes (c : Cursor) : List UInt8 × Cursor :=
  let byte? := if c.sees 0 '%' && c.rest.length > 2 then
    Data.natOfDigits? 16 ((c.rest.drop 1).take 2) else none
  match byte? with
  | none => ([], c)
  | some byte =>
    let after := c.skip 3
    if after.rest.length < c.rest.length then
      let (bytes, after) := tagBytes after
      (byte.toUInt8 :: bytes, after)
    else ([byte.toUInt8], after)
termination_by c.rest.length

/-- Reads the text of a tag up to a character that belongs to none. -/
def tagText (verbatim : Bool) (text : String) (c : Cursor) :
    Except Fault (String × Cursor) :=
  let (run, after) := c.takeWhile (isTagChar verbatim)
  let text := text ++ String.ofList run
  if after.sees 0 '%' then
    let (bytes, next) := tagBytes after
    match String.fromUTF8? ⟨bytes.toArray⟩ with
    | some escaped =>
      if next.rest.length < c.rest.length then
        tagText verbatim (text ++ escaped) next
      else .error (after.fault .tagText)
    | none => .error (after.fault .tagText)
  else .ok (text, after)
termination_by c.rest.length

/-- Reads a handle: a mark, and a name with a mark behind it if there is one. -/
def handleText (c : Cursor) : Except Fault (List Char × Cursor) :=
  if !c.sees 0 '!' then .error (c.fault .tagText)
  else
    let (name, after) := (c.skip 1).takeWhile isNameChar
    if after.sees 0 '!' then .ok ('!' :: (name ++ ['!']), after.skip 1)
    else .ok ('!' :: name, after)

/-- Reads a tag. -/
def tagKind (flow : Bool) (c : Cursor) : Except Fault (TokenKind × Cursor) := do
  let (kind, after) ← (if c.sees 1 '<' then do
      let (text, after) ← tagText true "" (c.skip 2)
      if text.isEmpty || !after.sees 0 '>' then throw (after.fault .tagText)
      return (TokenKind.tag "" text, after.skip 1)
    else do
      let (handle, after) ← handleText c
      if handle.length > 1 && handle.getLast? == some '!' then
        let (text, after) ← tagText false "" after
        if text.isEmpty then throw (after.fault .tagText)
        return (.tag (String.ofList handle) text, after)
      else
        let (text, after) ← tagText false (String.ofList (handle.drop 1)) after
        return (if text.isEmpty then .tag "" "!" else .tag "!" text, after))
  if after.endsWord 0 || (flow && after.sees 0 ',') then return (kind, after)
  else throw (after.fault .tagText)

def versionPart (c : Cursor) : Except Fault (Nat × Cursor) :=
  let (digits, after) := c.takeWhile Char.isDigit
  if digits.isEmpty || digits.length > 9 then .error (c.fault .directive)
  else .ok (Numeral.digitsValue digits, after)

/-- Reads a directive behind its mark, with the rest of its line. -/
def directiveKind (c : Cursor) : Except Fault (TokenKind × Cursor) := do
  let (name, after) := c.takeWhile isNameChar
  if name.isEmpty || !after.endsWord 0 then throw (c.fault .directive)
  let after := after.skipWhile isSpacing
  let (kind, after) ← (match String.ofList name with
    | "YAML" => do
      let (major, after) ← versionPart after
      if !after.sees 0 '.' then throw (after.fault .directive)
      let (minor, after) ← versionPart (after.skip 1)
      return (TokenKind.version major minor, after)
    | "TAG" => do
      let (handle, after) ← handleText after
      if handle.getLast? != some '!' || !after.test 0 isSpacing then
        throw (after.fault .directive)
      let (start, after) ← tagText true "" (after.skipWhile isSpacing)
      if start.isEmpty || !after.endsWord 0 then throw (after.fault .directive)
      return (.tagHandle (String.ofList handle) start, after)
    | _ => throw (c.fault .directive))
  let after := after.skipWhile isSpacing
  let after := if after.sees 0 '#' then after.skipLine else after
  if !after.rest.isEmpty && !after.test 0 isBreak then
    throw (after.fault .directive)
  return (kind, after.readBreak.2)

/-! ### The state of reading -/

/-- A place at which a key may have started. -/
structure PossibleKey where
  /-- Where in the list of tokens the key starts. -/
  position : Nat
  start : Cursor
  /-- Whether nothing but a key can stand there. -/
  required : Bool

/-- The tokens so far, and what the next ones depend on. -/
structure Lexing where
  cursor : Cursor
  tokens : Array Token := #[]
  /-- The columns of the open block collections, the innermost first. -/
  columns : List Nat := []
  /-- The place of a possible key outside of all flow collections. -/
  blockKey : Option PossibleKey := none
  /-- The places of possible keys in the open flow collections, the innermost
  first. -/
  flowKeys : List (Option PossibleKey) := []
  /-- Whether a key may start at the cursor. -/
  keyAllowed : Bool := true

namespace Lexing

/-- Whether a flow collection is open. -/
def inFlow (s : Lexing) : Bool := !s.flowKeys.isEmpty

/-- The place of a possible key in the innermost collection. -/
def possibleKey (s : Lexing) : Option PossibleKey :=
  match s.flowKeys with
  | key :: _ => key
  | [] => s.blockKey

def setPossibleKey (s : Lexing) (key : Option PossibleKey) : Lexing :=
  match s.flowKeys with
  | _ :: keys => { s with flowKeys := key :: keys }
  | [] => { s with blockKey := key }

def emit (s : Lexing) (kind : TokenKind) : Lexing :=
  { s with tokens := s.tokens.push ⟨kind, s.cursor.line⟩ }

/-- A token of some characters, which are stepped over. -/
def emitSkipping (s : Lexing) (kind : TokenKind) (n : Nat) : Lexing :=
  { s.emit kind with cursor := s.cursor.skip n }

/-- Forgets the place of a possible key. A required key that no colon has
followed is a fault. -/
def dropKey (s : Lexing) : Except Fault Lexing :=
  match s.possibleKey with
  | some key =>
    if key.required then .error (s.cursor.fault .keyWithoutValue)
    else .ok (s.setPossibleKey none)
  | none => .ok s

/-- Remembers the cursor as the place of a possible key. -/
def saveKey (s : Lexing) : Except Fault Lexing := do
  if !s.keyAllowed then return s
  let required := !s.inFlow && s.columns.head? == some s.cursor.column
  return (← s.dropKey).setPossibleKey (some ⟨s.tokens.size, s.cursor, required⟩)

/-- The greatest number of characters that a key may have. -/
def maxKeyLength : Nat := 1024

/-- Whether a key that started at a place cannot end at the cursor any more: it
has one line and a limited length. -/
def isStale (s : Lexing) (key : PossibleKey) : Bool :=
  key.start.line < s.cursor.line || key.start.index + maxKeyLength <
    s.cursor.index

/-- A possible key unless it is stale. -/
def refresh (s : Lexing) :
    Option PossibleKey → Except Fault (Option PossibleKey)
  | none => .ok none
  | some key =>
    if !s.isStale key then .ok (some key)
    else if key.required then .error (s.cursor.fault .keyWithoutValue)
    else .ok none

/-- Forgets all places of keys that are stale. -/
def dropStaleKeys (s : Lexing) : Except Fault Lexing := do
  return { s with blockKey := ← s.refresh s.blockKey,
                  flowKeys := ← s.flowKeys.mapM s.refresh }

/-- Opens a block collection at a column that is deeper than those of the open
ones; its token goes to a position among the tokens. -/
def openBlock (s : Lexing) (column position line : Nat) (kind : TokenKind) :
    Lexing :=
  if s.inFlow || s.columns.head?.any (column ≤ ·) then s
  else { s with
    columns := column :: s.columns
    tokens := s.tokens.insertIdxIfInBounds position ⟨kind, line⟩ }

/-- Opens a block collection at the cursor. -/
def openBlockHere (s : Lexing) (kind : TokenKind) : Lexing :=
  s.openBlock s.cursor.column s.tokens.size s.cursor.line kind

/-- Closes the open block collections that are deeper than the least column that
can stay open. -/
def closeBlocks (s : Lexing) (stays : Nat → Bool) : Lexing :=
  if s.inFlow then s
  else
    let closed := s.columns.takeWhile (!stays ·)
    { s with
      columns := s.columns.drop closed.length
      tokens :=
        s.tokens ++ Array.replicate closed.length ⟨.blockEnd, s.cursor.line⟩ }

/-! ### The next token -/

/-- Steps over blanks, comments and breaks. Outside of flow collections a new
line may start with a key, and a tab cannot stand where a key could. -/
def skipToToken (s : Lexing) : Lexing :=
  let c := s.cursor.skipWhile fun ch => ch == ' ' ||
    ((s.inFlow || !s.keyAllowed) && ch == '\t')
  let c := if c.sees 0 '#' then c.skipLine else c
  if c.test 0 isBreak then
    let after := c.readBreak.2
    let s' : Lexing :=
      { s with cursor := after, keyAllowed := s.keyAllowed || !s.inFlow }
    if _h : after.rest.length < s.cursor.rest.length then skipToToken s' else s'
  else { s with cursor := c }
termination_by s.cursor.rest.length
decreasing_by exact _h

/-- Reads a token that is no part of a collection's structure and may be a
key. -/
def readContent (s : Lexing)
    (read : Cursor → Except Fault (TokenKind × Cursor)) :
    Except Fault Lexing := do
  let s ← s.saveKey
  let (kind, after) ← read s.cursor
  return { s.emit kind with cursor := after, keyAllowed := false }

def readBlockEntry (s : Lexing) : Except Fault Lexing := do
  if !s.inFlow && !s.keyAllowed then throw (s.cursor.fault .misplacedEntry)
  let s ← (s.openBlockHere .blockSequenceStart).dropKey
  return { s.emitSkipping .blockEntry 1 with keyAllowed := true }

def readKey (s : Lexing) : Except Fault Lexing := do
  if !s.inFlow && !s.keyAllowed then throw (s.cursor.fault .misplacedKey)
  let s ← (s.openBlockHere .blockMappingStart).dropKey
  return { s.emitSkipping .key 1 with keyAllowed := !s.inFlow }

/-- Reads an indicator that starts a value. What could be a key in front of it
is one. -/
def readValue (s : Lexing) : Except Fault Lexing := do
  match s.possibleKey with
  | some key =>
    let line := key.start.line
    let s := { s with
      tokens := s.tokens.insertIdxIfInBounds key.position ⟨.key, line⟩ }
    let s := s.openBlock key.start.column key.position line .blockMappingStart
    return { (s.setPossibleKey none).emitSkipping .value 1 with
      keyAllowed := false }
  | none =>
    if !s.inFlow && !s.keyAllowed then throw (s.cursor.fault .misplacedValue)
    let s := s.openBlockHere .blockMappingStart
    return { s.emitSkipping .value 1 with keyAllowed := !s.inFlow }

/-- Opens a flow collection, which may itself be a key. -/
def openFlow (s : Lexing) (kind : TokenKind) : Except Fault Lexing := do
  let s ← s.saveKey
  return { s.emitSkipping kind 1 with
    flowKeys := none :: s.flowKeys, keyAllowed := true }

/-- Closes a flow collection, if one is open. -/
def closeFlow (s : Lexing) (kind : TokenKind) : Except Fault Lexing := do
  let s ← s.dropKey
  return { s.emitSkipping kind 1 with
    flowKeys := s.flowKeys.drop 1, keyAllowed := false }

/-- Reads a mark or a directive, which closes all block collections. -/
def readBetweenDocuments (s : Lexing)
    (read : Cursor → Except Fault (TokenKind × Cursor)) :
    Except Fault Lexing := do
  let s ← (s.closeBlocks fun _ => false).dropKey
  let (kind, after) ← read s.cursor
  return { s.emit kind with cursor := after, keyAllowed := false }

def readBlockScalar (s : Lexing) (folded : Bool) : Except Fault Lexing := do
  let s ← s.dropKey
  let scalar ← blockScalar folded s.columns.head? (s.cursor.skip 1)
  return { s.emit (.scalar false (String.ofList scalar.text)) with
    cursor := scalar.after, keyAllowed := true }

/-- Reads a plain scalar. A key may follow it if it ends with a line. -/
def readPlain (s : Lexing) : Except Fault Lexing := do
  let s ← s.saveKey
  let indent := (s.columns.head?.map (· + 1)).getD 0
  let (scalar, broken) ← plainScalar s.inFlow indent [] {} s.cursor
  return { s.emit (.scalar true (String.ofList scalar.text)) with
    cursor := scalar.after, keyAllowed := broken }

def readQuoted (s : Lexing) (mark : Char) : Except Fault Lexing :=
  s.readContent fun c => do
    let scalar ← quotedScalar mark [] (c.skip 1)
    return (.scalar false (String.ofList scalar.text), scalar.after)

/-- The characters that a plain scalar cannot start with. -/
def indicators : List Char := "-?:,[]\x7b\x7d#&*!|>'\"%@`".toList

/-- Whether a plain scalar can start at the cursor. -/
def startsPlain (s : Lexing) (ch : Char) : Bool :=
  let c := s.cursor
  !(isSpacing ch || isBreak ch || indicators.contains ch) ||
    (ch == '-' && !c.test 1 isSpacing) ||
    (!s.inFlow && (ch == '?' || ch == ':') && !c.endsWord 1)

/-- Reads the next token, of which the first character is given. -/
def readToken (s : Lexing) (ch : Char) : Except Fault Lexing :=
  let c := s.cursor
  if c.column == 0 && ch == '%' then s.readBetweenDocuments fun c =>
    directiveKind (c.skip 1)
  else if c.atMark '-' then s.readBetweenDocuments fun c =>
    .ok (.documentStart, c.skip 3)
  else if c.atMark '.' then s.readBetweenDocuments fun c =>
    .ok (.documentEnd, c.skip 3)
  else if ch == '[' then s.openFlow .flowSequenceStart
  else if ch == '{' then s.openFlow .flowMappingStart
  else if ch == ']' then s.closeFlow .flowSequenceEnd
  else if ch == '}' then s.closeFlow .flowMappingEnd
  else if ch == ',' then do
    let s ← s.dropKey
    return { s.emitSkipping .flowEntry 1 with keyAllowed := true }
  else if ch == '-' && c.endsWord 1 then s.readBlockEntry
  else if ch == '?' && (s.inFlow || c.endsWord 1) then s.readKey
  else if ch == ':' && (s.inFlow || c.endsWord 1) then s.readValue
  else if ch == '*' then s.readContent fun c => do
    let (name, after) ← anchorName (c.skip 1)
    return (.alias name, after)
  else if ch == '&' then s.readContent fun c => do
    let (name, after) ← anchorName (c.skip 1)
    return (.anchor name, after)
  else if ch == '!' then s.readContent (tagKind s.inFlow)
  else if ch == '|' && !s.inFlow then s.readBlockScalar false
  else if ch == '>' && !s.inFlow then s.readBlockScalar true
  else if ch == '\'' || ch == '"' then s.readQuoted ch
  else if s.startsPlain ch then s.readPlain
  else .error (c.fault .strayCharacter)

/-- Closes what is open at the end of the text. -/
def finish (s : Lexing) : Except Fault Lexing :=
  (s.closeBlocks fun _ => false).dropKey

/-- Reads all tokens that are left. -/
def readAll (s : Lexing) : Except Fault Lexing := do
  let s' ← s.skipToToken.dropStaleKeys
  let s' := s'.closeBlocks (· ≤ s'.cursor.column)
  match s'.cursor.rest with
  | [] => s'.finish
  | ch :: _ =>
    let next ← s'.readToken ch
    if _h : next.cursor.rest.length < s.cursor.rest.length then readAll next
    else throw (next.cursor.fault .strayCharacter)
termination_by s.cursor.rest.length
decreasing_by exact _h

end Lexing

/-- The characters of a text without the mark of its encoding. -/
def withoutMark : List Char → List Char
  | '\ufeff' :: cs => cs
  | cs => cs

def tokens (text : String) : Except Fault (List Token) := do
  let start : Lexing := { cursor := { rest := withoutMark text.toList } }
  if !text.toList.all isAllowed then
    throw (start.cursor.fault .forbiddenCharacter)
  return (← start.readAll).tokens.toList

end Scaffold.Yaml

import Scaffold.Data
import Scaffold.Yaml.Cursor
/-!
The text of scalars: plain, quoted, and in blocks. Line breaks inside plain and
quoted scalars are folded: one break is a space, further ones are kept.
-/
namespace Scaffold.Yaml

/-- The blanks and breaks between two words of a scalar. -/
structure Gap where
  /-- The blanks, if there is no break. -/
  blanks : List Char := []
  /-- What the first break stands for; nothing for a break that was escaped. -/
  firstBreak : List Char := []
  moreBreaks : List Char := []
  /-- Whether there was a break. -/
  broken : Bool := false
  deriving DecidableEq, Repr

namespace Gap

/-- The text that a gap stands for. -/
def text (g : Gap) : List Char :=
  if !g.broken then g.blanks
  else if g.firstBreak == ['\n'] then
    if g.moreBreaks.isEmpty then [' '] else g.moreBreaks
  else g.firstBreak ++ g.moreBreaks

/-- Reads the gap in front of the next word. Behind a break, no tab may stand at
a column below `indent`. -/
def read (indent : Nat) (g : Gap) (c : Cursor) : Except Fault (Gap × Cursor) :=
  match _h : c.rest with
  | [] => .ok (g, c)
  | ch :: _ =>
    if isSpacing ch then
      if g.broken && ch == '\t' && c.column < indent then
        .error (c.fault .tabInIndentation)
      else
        read indent
          (if g.broken then g else { g with blanks := g.blanks ++ [ch] })
          (c.skip 1)
    else if isBreak ch then
      let stands := c.readBreak.1
      read indent
        (if g.broken then { g with moreBreaks := g.moreBreaks ++ stands }
          else { firstBreak := stands, broken := true })
        c.readBreak.2
    else .ok (g, c)
termination_by c.rest.length
decreasing_by
  · simp [Cursor.length_skip, _h]
  · exact Cursor.length_readBreak_lt _h ‹_›

end Gap

/-- A scalar that is read: its text, and the cursor behind it. -/
structure ReadScalar where
  text : List Char
  after : Cursor

/-! ### Plain scalars -/

def flowIndicators : List Char := [',', '[', ']', '{', '}']

/-- The characters of the next word of a plain scalar; nothing if a colon stands
in front of an indicator of a flow collection. -/
def plainWord? (flow : Bool) : List Char → Option (List Char)
  | [] => some []
  | ch :: cs =>
    if isSpacing ch || isBreak ch ||
      (flow && flowIndicators.contains ch) then some []
    else if ch == ':' then
      match cs.head? with
      | none => some []
      | some next =>
        if flow && (next == '?' || flowIndicators.contains next) then none
        else if isSpacing next || isBreak next then some []
        else (plainWord? flow cs).map (ch :: ·)
    else (plainWord? flow cs).map (ch :: ·)

/-- Reads a plain scalar from the next word on, behind a gap and the text that
is already read. Lines in blocks are indented by `indent` at least. Tells also
whether a break was the last thing. -/
def plainScalar (flow : Bool) (indent : Nat) (text : List Char) (gap : Gap)
    (c : Cursor) : Except Fault (ReadScalar × Bool) := do
  if c.atDocumentMark || c.sees 0 '#' then return (⟨text, c⟩, gap.broken)
  let some word := plainWord? flow c.rest | throw (c.fault .colonInFlow)
  let text := if word.isEmpty then text else text ++ gap.text ++ word
  let gap := if word.isEmpty then gap else {}
  let (gap, after) ← gap.read indent (c.skip word.length)
  if !flow && gap.broken && after.column < indent then
    return (⟨text, after⟩, gap.broken)
  if after.rest.length < c.rest.length then
    plainScalar flow indent text gap after
  else return (⟨text, after⟩, gap.broken)
termination_by c.rest.length

/-! ### Quoted scalars -/

/-- What an escape of one character means. -/
def escapes : List (Char × Char) :=
  [('0', '\x00'), ('a', '\x07'), ('b', '\x08'), ('t', '\t'), ('\t', '\t'),
    ('n', '\n'), ('v', '\x0b'), ('f', '\x0c'), ('r', '\r'), ('e', '\x1b'),
    (' ', ' '), ('"', '"'), ('/', '/'), ('\\', '\\'), ('N', '\u0085'),
    ('_', '\u00a0'), ('L', '\u2028'), ('P', '\u2029')]

/-- The number of digits behind an escape that names a code point. -/
def escapeDigits : List (Char × Nat) := [('x', 2), ('u', 4), ('U', 8)]

/-- The character that the text behind a backslash stands for, with the length
of that text. -/
def escape? (cs : List Char) : Option (Char × Nat) := do
  let mark ← cs.head?
  match escapes.lookup mark with
  | some ch => some (ch, 1)
  | none =>
    let count ← escapeDigits.lookup mark
    let digits := (cs.drop 1).take count
    if digits.length < count then none
    else
      let n ← Data.natOfDigits? 16 digits
      if n.isValidChar then some (Char.ofNat n, count + 1) else none

/-- Reads the next word of a quoted scalar, in front of which `word` is read in
reverse. Tells also whether a break was escaped behind it. -/
def quotedWord (mark : Char) (word : List Char) (c : Cursor) :
    Except Fault (List Char × Cursor × Bool) :=
  match _h : c.rest with
  | [] => .ok (word.reverse, c, false)
  | ch :: cs =>
    if isSpacing ch || isBreak ch then .ok (word.reverse, c, false)
    else if ch == mark then
      if mark == '\'' && cs.head? == some '\'' then
        quotedWord mark (ch :: word) (c.skip 2)
      else .ok (word.reverse, c, false)
    else if ch == '\\' && mark == '"' then
      if cs.head?.any isBreak then
        .ok (word.reverse, (c.skip 1).readBreak.2, true)
      else
        match escape? cs with
        | some (meant, length) =>
          quotedWord mark (meant :: word) (c.skip (length + 1))
        | none => .error (c.fault .escape)
    else quotedWord mark (ch :: word) (c.skip 1)
termination_by c.rest.length
decreasing_by
  all_goals simp only [Cursor.length_skip, _h, List.length_cons]
  all_goals omega

/-- Reads a quoted scalar behind its opening mark and the text that is already
read. -/
def quotedScalar (mark : Char) (text : List Char) (c : Cursor) :
    Except Fault ReadScalar := do
  if c.atDocumentMark then throw (c.fault .documentMarkInQuote)
  if c.rest.isEmpty then throw (c.fault .openQuote)
  let (word, after, escaped) ← quotedWord mark [] c
  let text := text ++ word
  if after.sees 0 mark then return ⟨text, after.skip 1⟩
  let (gap, after) ← Gap.read 0 { broken := escaped } after
  if after.rest.length < c.rest.length then
    quotedScalar mark (text ++ gap.text) after
  else throw (c.fault .openQuote)
termination_by c.rest.length

/-! ### Block scalars -/

/-- What happens to the breaks at the end of a block scalar. -/
inductive Chomping
  | strip
  | clip
  | keep
  deriving DecidableEq, Repr

/-- The chomping that a character asks for. -/
def Chomping.ofChar? : Char → Option Chomping
  | '+' => some keep
  | '-' => some strip
  | _ => none

/-- Reads the indicators behind the mark of a block scalar, in either order: the
chomping, and the indentation or zero if there is none. -/
def blockHeader (c : Cursor) : Except Fault (Chomping × Nat × Cursor) :=
  let chomping (c : Cursor) : Chomping × Cursor :=
    match (c.peek? 0).bind Chomping.ofChar? with
    | some chomping => (chomping, c.skip 1)
    | none => (.clip, c)
  let width (c : Cursor) : Except Fault (Nat × Cursor) :=
    match c.peek? 0 with
    | some ch =>
      if ch == '0' then .error (c.fault .blockHeader)
      else if ch.isDigit then .ok (ch.toNat - '0'.toNat, c.skip 1)
      else .ok (0, c)
    | none => .ok (0, c)
  if (c.peek? 0).any Char.isDigit then do
    let (n, c) ← width c
    let (kind, c) := chomping c
    return (kind, n, c)
  else do
    let (kind, after) := chomping c
    if after.index == c.index then return (kind, 0, c)
    let (n, after) ← width after
    return (kind, n, after)

/-- Steps over the indentation and the empty lines in front of the next line of
a block scalar. While the indentation is not known it is zero here. Gives also
the greatest column that an indentation reaches. -/
def blockGap (indent greatest : Nat) (breaks : List Char) (c : Cursor) :
    Except Fault (Nat × List Char × Cursor) := do
  let spaces := (c.rest.takeWhile (· == ' ')).length
  let behind :=
    c.skip (if indent == 0 then spaces else min spaces (indent - c.column))
  let greatest := max greatest behind.column
  if (indent == 0 || behind.column < indent) && behind.sees 0 '\t' then
    throw (behind.fault .tabInIndentation)
  let (stands, after) := behind.readBreak
  if stands.isEmpty then return (greatest, breaks, behind)
  if after.rest.length < c.rest.length then
    blockGap indent greatest (breaks ++ stands) after
  else return (greatest, breaks, behind)
termination_by c.rest.length

/-- What is read of a block scalar. -/
structure BlockText where
  text : List Char := []
  /-- The break behind the last line. -/
  lastBreak : List Char := []
  /-- The breaks of the empty lines behind that. -/
  emptyLines : List Char := []
  /-- Whether the last line started with a blank. -/
  indented : Bool := false

/-- Reads the lines of a block scalar, which are all indented by `indent`. -/
def blockLines (folded : Bool) (indent : Nat) (block : BlockText) (c : Cursor) :
    Except Fault (BlockText × Cursor) := do
  if c.column != indent || c.rest.isEmpty then return (block, c)
  let indented := c.test 0 isSpacing
  let joined :=
    if folded && block.lastBreak == ['\n'] && !block.indented && !indented then
      if block.emptyLines.isEmpty then [' '] else block.emptyLines
    else block.lastBreak ++ block.emptyLines
  let (line, after) := c.takeWhile (!isBreak ·)
  let (lastBreak, after) := after.readBreak
  let (_, emptyLines, after) ← blockGap indent 0 [] after
  let block := ⟨block.text ++ joined ++ line, lastBreak, emptyLines, indented⟩
  if after.rest.length < c.rest.length then blockLines folded indent block after
  else return (block, after)
termination_by c.rest.length

/-- Reads a block scalar behind its mark. The scalar is deeper than the
collection around it, which is indented by `outer` if there is one. -/
def blockScalar (folded : Bool) (outer : Option Nat) (c : Cursor) :
    Except Fault ReadScalar := do
  let (chomping, width, c) ← blockHeader c
  let c := c.skipWhile isSpacing
  let c := if c.sees 0 '#' then c.skipLine else c
  if !c.rest.isEmpty && !c.test 0 isBreak then throw (c.fault .blockHeader)
  let c := c.readBreak.2
  let known := if width == 0 then 0 else outer.getD 0 + width
  let (greatest, breaks, c) ← blockGap known 0 [] c
  let least := max 1 ((outer.map (· + 1)).getD 0)
  let indent := if known == 0 then max greatest least else known
  let (block, c) ← blockLines folded indent { emptyLines := breaks } c
  let tail := match chomping with
    | .strip => []
    | .clip => block.lastBreak
    | .keep => block.lastBreak ++ block.emptyLines
  return ⟨block.text ++ tail, c⟩

end Scaffold.Yaml

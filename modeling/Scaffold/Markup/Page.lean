import Scaffold.Config
import Scaffold.Node
import Scaffold.Numeral
import Scaffold.Text.Lines
/-!
The page that markup is written to: the text so far with the place reached in
it, the level of indentation, and the number that the next fields are counted
from.  Fields are counted in words, and the program stops at a sum that does not
fit one.  A page keeps the exact numbers, and marks that such a sum has come up.
-/
namespace Scaffold.Markup

/-- The text written so far. Offset, line and column are where it ends. -/
structure Output where
  text : String := ""
  level : Int := 0
  offset : Nat := 0
  line : Nat := 0
  column : Nat := 0
  deriving DecidableEq, Repr

namespace Output

def raw (out : Output) (s : String) : Output :=
  let n := s.length
  { out with
    text := out.text ++ s, offset := out.offset + n, column := out.column + n }

def push (h : Hooks) (out : Output) (s : String) : Output := out.raw (h.text s)

/-- Writes units of indentation. -/
def indent (o : Options) (out : Output) (n : Int) : Output :=
  out.raw (String.join (List.replicate n.toNat o.indent))

/-- Begins a line with a level of indentation. -/
def newline (o : Options) (out : Output) (n : Int) : Output :=
  let out := out.raw (o.newline ++ o.baseIndent)
  let out := { out with line := out.line + 1, column := o.baseIndent.length }
  if 0 < n then out.indent o n else out

/-- Writes lines, each behind the first on a line of its own at the current
level. -/
def lines (o : Options) (h : Hooks) (out : Output) : List String → Output
  | [] => out
  | [s] => out.push h s
  | s :: rest =>
    let out := out.push h s
    lines o h (out.newline o out.level) rest

def string (o : Options) (h : Hooks) (out : Output) (s : String) : Output :=
  out.lines o h (Text.lines s)

def field (h : Hooks) (out : Output) (index : Nat) (name : String) : Output :=
  out.raw (h.field index name)

def shift (out : Output) (n : Int) : Output :=
  { out with level := out.level + n }

end Output

/-- The output and the number that is added to the index of the next field. -/
structure Page where
  out : Output := {}
  fieldBase : Nat := 0
  /-- Whether every sum of field numbers so far fits a word. -/
  fits : Bool := true

/-- The place for the reader to go to in an empty element. -/
def caret : List Piece := [.field 0 ""]

/-- Whether nothing is written for the place of an empty element. -/
def caretIsEmpty (h : Hooks) : Bool := (h.field 0 "").isEmpty

/-- The largest index of the fields among pieces. -/
def largestIndex : List Piece → Option Nat
  | [] => none
  | .text _ :: ps => largestIndex ps
  | .field i _ :: ps =>
    match largestIndex ps with
    | some j => some (max i j)
    | none => some i

namespace Page

def string (c : Config) (p : Page) (s : String) : Page :=
  { p with out := p.out.string c.options c.hooks s }

def push (c : Config) (p : Page) (s : String) : Page :=
  { p with out := p.out.push c.hooks s }

def newline (c : Config) (p : Page) (n : Int) : Page :=
  { p with out := p.out.newline c.options n }

def shift (p : Page) (n : Int) : Page := { p with out := p.out.shift n }

def freshLine (c : Config) (p : Page) : Page := p.newline c p.out.level

/-- Takes note of a sum of field numbers. -/
def count (p : Page) (sum : Nat) : Page :=
  { p with fits := p.fits && decide (sum ≤ Numeral.wordMax) }

/-- Writes one piece; fields are counted from the page's base. -/
def piece (c : Config) (p : Page) : Piece → Page
  | .text s => p.string c s
  | .field index name =>
    { p.count (p.fieldBase + index) with
      out := p.out.field c.hooks (p.fieldBase + index) name }

/-- Writes a value. The fields of later values are counted from behind those of
this one. -/
def pieces (c : Config) (p : Page) (ps : List Piece) : Page :=
  let page := ps.foldl (piece c) p
  match largestIndex ps with
  | some largest =>
    let page :=
      (page.count (largest + 1)).count (page.fieldBase + (largest + 1))
    { page with fieldBase := page.fieldBase + (largest + 1) }
  | none => page

@[simp]
theorem out_count (p : Page) (sum : Nat) : (p.count sum).out = p.out := rfl

@[simp]
theorem fieldBase_count (p : Page) (sum : Nat) :
    (p.count sum).fieldBase = p.fieldBase := rfl

theorem fits_count (p : Page) (sum : Nat) :
    (p.count sum).fits = true ↔ p.fits = true ∧ sum ≤ Numeral.wordMax := by
  simp [count]

theorem fieldBase_piece (c : Config) (p : Page) (x : Piece) :
    (piece c p x).fieldBase = p.fieldBase := by
  cases x <;> rfl

theorem fieldBase_foldl_piece (c : Config) (p : Page) (ps : List Piece) :
    (ps.foldl (piece c) p).fieldBase = p.fieldBase := by
  induction ps generalizing p with
  | nil => rfl
  | cons x ps ih => rw [List.foldl_cons, ih, fieldBase_piece]

/-- Writes something on lines of its own one level further in, if wanted. -/
def onOwnLines (c : Config) (wanted : Bool) (write : Page → Page) (p : Page) :
    Page :=
  if wanted then ((write ((p.shift 1).freshLine c)).shift (-1)).freshLine c
  else write p

end Page

/-- Pieces as lines: texts are cut at line breaks, and empty texts left out. -/
def valueLines : List Piece → List (List Piece)
  | [] => [[]]
  | .field index name :: ps =>
    match valueLines ps with
    | [] => [[.field index name]]
    | line :: lines => (.field index name :: line) :: lines
  | .text s :: ps => textLines (Text.lines s) (valueLines ps)
where
  /-- The lines of a text, the last of which goes on with the first line behind
  it. -/
  textLines : List String → List (List Piece) → List (List Piece)
    | [], behind => behind
    | [s], [] => [textPiece s]
    | [s], line :: lines => (textPiece s ++ line) :: lines
    | s :: rest, behind => textPiece s :: textLines rest behind
  /-- The piece of a line's text, if there is any. -/
  textPiece (s : String) : List Piece := if s.isEmpty then [] else [.text s]

/-- Whether a piece goes over more than one line. -/
def spansLines : Piece → Bool
  | .text s => Text.hasBreak s
  | .field _ _ => false

/-- An attribute that is written: an implied one needs a value. -/
def isWritten (a : Attribute) : Bool :=
  !a.implied || a.kind != .raw || a.hasValue

/-- An attribute that means the same with and without a value. -/
def isBoolean (o : Options) (a : Attribute) : Bool :=
  a.boolean || (a.name.map o.isBooleanAttribute).getD false

/-- What stands on both sides of an attribute's value. -/
def quotes (o : Options) (a : Attribute) : String × String :=
  if a.kind = .expression then ("\x7b", "\x7d")
  else (o.attributeQuotes.mark.toString, o.attributeQuotes.mark.toString)

end Scaffold.Markup

/-!
A cursor over the characters of a text, with a mark behind it and an end it does
not pass. Looking ahead stops at the end; looking up a place or cutting out a
part sees the whole text.
-/
namespace Scaffold.Text

/-- A place in a text: reading starts at `pos` and stops at `stop`, and `start`
is the mark. -/
structure Cursor where
  chars : List Char
  start : Nat
  pos : Nat
  stop : Nat

namespace Cursor

def ofString (s : String) : Cursor :=
  ⟨s.toList, 0, 0, s.toList.length⟩

/-- A cursor from `start` up to `stop`, both kept within the text. -/
def within (s : String) (start stop : Nat) : Cursor :=
  let stop := min stop s.toList.length
  let start := min start stop
  ⟨s.toList, start, start, stop⟩

def atEnd (c : Cursor) : Bool := c.stop ≤ c.pos

/-- The character at a place of the whole text. -/
def charAt (c : Cursor) (i : Nat) : Option Char := c.chars[i]?

/-- The character some places ahead. -/
def peekAt (c : Cursor) (n : Nat) : Option Char :=
  if c.pos + n < c.stop then c.charAt (c.pos + n) else none

def peek (c : Cursor) : Option Char := c.peekAt 0

def next (c : Cursor) : Option Char × Cursor :=
  match c.peek with
  | some ch => (some ch, { c with pos := c.pos + 1 })
  | none => (none, c)

/-- Steps over the next character if the test holds of it. -/
def eatIf (c : Cursor) (test : Char → Bool) : Bool × Cursor :=
  if (c.peek.map test).getD false then (true, { c with pos := c.pos + 1 })
  else (false, c)

def eat (c : Cursor) (ch : Char) : Bool × Cursor := c.eatIf (· == ch)

/-- Steps over all next characters that pass the test, and says whether there
were any. -/
def eatWhile (c : Cursor) (test : Char → Bool) : Bool × Cursor :=
  let run := (((c.chars.take c.stop).drop c.pos).takeWhile test).length
  (run != 0, { c with pos := c.pos + run })

/-- Steps back, at most to the beginning of the text. -/
def backUp (c : Cursor) (n : Nat) : Cursor := { c with pos := c.pos - n }

def mark (c : Cursor) : Cursor := { c with start := c.pos }

/-- The part of the whole text between two places. -/
def substring (c : Cursor) (start stop : Nat) : String :=
  String.ofList ((c.chars.take stop).drop start)

def current (c : Cursor) : String := c.substring c.start c.pos

end Cursor

end Scaffold.Text

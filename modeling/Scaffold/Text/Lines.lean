import Scaffold.Text.Split
/-!
Texts as lines. A line ends at a line feed, a carriage return, or the two
together; or, where only line feeds end lines, at a line feed with the carriage
return in front of it.
-/
namespace Scaffold.Text

/-- The lines of characters, of which there is always one more than breaks. -/
def lineChars : List Char → List (List Char)
  | [] => [[]]
  | '\r' :: '\n' :: cs => [] :: lineChars cs
  | '\r' :: cs => [] :: lineChars cs
  | '\n' :: cs => [] :: lineChars cs
  | c :: cs =>
    match lineChars cs with
    | [] => [[c]]
    | line :: lines => (c :: line) :: lines

def lines (s : String) : List String := (lineChars s.toList).map String.ofList

/-- Characters without a carriage return at their end. -/
def dropReturn (line : List Char) : List Char :=
  if line.getLast? == some '\r' then line.dropLast else line

/-- The lines of a text that end at line feeds only. What stands behind the last
line feed is a line unless it is empty. -/
def feedLines (s : String) : List String :=
  let parts := splitChars (· == '\n') s.toList
  let rest := parts.getLast?.getD []
  ((parts.dropLast.map dropReturn) ++ (if rest.isEmpty then [] else [rest])).map
    String.ofList

def isBreak (c : Char) : Bool := c == '\r' || c == '\n'

def hasBreak (s : String) : Bool := s.toList.any isBreak

end Scaffold.Text

import Scaffold.Entries
import Scaffold.Text.Blank
import Scaffold.Text.Split
/-!
The snippets an abbreviation may use: a map from element names to abbreviations
that keeps the order in which names were first registered.
-/
namespace Scaffold.Snippet

/-- Snippet bodies by name, in the order of first registration. -/
structure Registry where
  entries : List (String × String) := []
  deriving DecidableEq, Repr

namespace Registry

/-- The names that a key stands for: its parts between bars, without blanks
around them. -/
def aliases (key : String) : List String :=
  ((Text.splitAt key '|').map Text.trim).filter (· ≠ "")

def insert (r : Registry) (key body : String) : Registry :=
  ⟨(aliases key).foldl (fun entries name => Entries.put name body entries)
    r.entries⟩

/-- Registers pairs of key and body one after the other. -/
def insertAll (r : Registry) (pairs : List (String × String)) : Registry :=
  pairs.foldl (fun r p => r.insert p.1 p.2) r

/-- A registry of the given pairs of key and body. -/
def ofPairs (pairs : List (String × String)) : Registry :=
  ({} : Registry).insertAll pairs

/-- A registry with the names of another one set as there. -/
def extend (r other : Registry) : Registry :=
  ⟨other.entries.foldl (fun entries p => Entries.put p.1 p.2 entries) r.entries⟩

def get? (r : Registry) (name : String) : Option String := r.entries.lookup name

def keys (r : Registry) : List String := r.entries.map Prod.fst

def size (r : Registry) : Nat := r.entries.length

def isEmpty (r : Registry) : Bool := r.entries.isEmpty

end Registry

end Scaffold.Snippet

import Scaffold.Toml.Value
/-!
Settings files with tables and assignments, read as data. Each line opens a
table or assigns to a key of the table that is open.
-/
namespace Scaffold.Toml

/-- The table that assignments go to, and all that is assigned. -/
structure Reading where
  root : Entries := []
  /-- The path of the open table; it is empty in front of the first header. -/
  table : List String := []

namespace Reading

/-- The reading with a value under a key of the open table. -/
def assign? (r : Reading) (path : List String) (d : Data) : Option Reading := do
  let root ← if r.table.isEmpty then r.root.assign path d
    else r.root.update r.table (Entries.assignIn path d)
  return { r with root }

def open? (r : Reading) (path : List String) (element : Bool) :
    Option Reading := do
  let change := if element then Entries.openElement else Entries.openTable
  return ⟨← r.root.update path change, path⟩

/-- Reads one line that says something. -/
def line? (r : Reading) (cs : List Char) : Option (Reading × List Char) :=
  match cs with
  | '[' :: '[' :: rest => do
    let (path, rest) ← key? (dropBlanks rest)
    match dropBlanks rest with
    | ']' :: ']' :: rest => return (← r.open? path true, ← lineEnd? rest)
    | _ => none
  | '[' :: rest => do
    let (path, rest) ← key? (dropBlanks rest)
    match dropBlanks rest with
    | ']' :: rest => return (← r.open? path false, ← lineEnd? rest)
    | _ => none
  | cs => do
    let (path, rest) ← key? cs
    match dropBlanks rest with
    | '=' :: rest =>
      let (d, rest) ← value? (dropBlanks rest)
      return (← r.assign? path d, ← lineEnd? rest)
    | _ => none

def lines? (r : Reading) (cs : List Char) : Option Reading :=
  match dropGap cs with
  | [] => some r
  | rest =>
    match r.line? rest with
    | some (r, rest) => if rest.length < cs.length then lines? r rest else none
    | none => none
termination_by cs.length

end Reading

/-- The characters of a text without the mark of its encoding. -/
def withoutMark : List Char → List Char
  | '\ufeff' :: cs => cs
  | cs => cs

def parse? (text : String) : Option Data := do
  let r ← Reading.lines? {} (withoutMark text.toList)
  return (Entry.table .header r.root).toData

end Scaffold.Toml

import Scaffold.FileSystem
import Scaffold.Text.Split
/-!
A tree of files in memory. A place is the list of the names that lead to it from
the root; a path is walked step by step, and each step needs a directory to
start from.
-/
namespace Scaffold

/-- What stands at a place. -/
inductive FileEntry
  | file (text : String)
  | directory
  deriving DecidableEq, Repr

/-- Files and directories by their places, and the place where relative paths
start. -/
structure FileTree where
  entries : List (List String × FileEntry) := []
  workingDirectory : List String := []
  deriving DecidableEq, Repr

namespace FileTree

/-- What stands at a place; the root is always a directory. -/
def entry? (t : FileTree) (place : List String) : Option FileEntry :=
  if place = [] then some .directory else t.entries.lookup place

def isDirectory (t : FileTree) (place : List String) : Bool :=
  t.entry? place == some .directory

def put (t : FileTree) (place : List String) (entry : FileEntry) : FileTree :=
  { t with entries := (place, entry) :: t.entries.filter (·.1 != place) }

/-- The greatest length of a name, in bytes. -/
def maxNameSize : Nat := 255

/-- The place one step further. -/
def step (t : FileTree) (place : List String) (name : String) :
    Except FileFault (List String) :=
  if !t.isDirectory place then .error .notDirectory
  else if name = "." then .ok place
  else if name = ".." then .ok place.dropLast
  else if maxNameSize < name.utf8ByteSize then .error .nameTooLong
  else if (t.entry? (place ++ [name])).isSome then .ok (place ++ [name])
  else .error .notFound

/-- The place at the end of some steps. -/
def walk (t : FileTree) (place : List String) :
    List String → Except FileFault (List String)
  | [] => .ok place
  | name :: names =>
    match t.step place name with
    | .error fault => .error fault
    | .ok next => walk t next names

/-- The steps of a path, dots included. -/
def stepsOf (path : String) : List String :=
  (Text.splitAt path '/').filter (!·.isEmpty)

/-- Where a path starts. -/
def startOf (t : FileTree) (path : String) : List String :=
  if path.toList.head? == some '/' then [] else t.workingDirectory

def endsInSlash (path : String) : Bool := path.toList.getLast? == some '/'

/-- The place that a path leads to. A slash at the end demands a directory. -/
def locate (t : FileTree) (path : String) : Except FileFault (List String) :=
  if path.isEmpty then .error .notFound
  else t.walk (t.startOf path) (stepsOf path ++ if endsInSlash path then
    ["."] else [])

def find? (t : FileTree) (path : String) : Option FileEntry :=
  match t.locate path with
  | .ok place => t.entry? place
  | .error _ => none

/-- The place for the file of a path, with what stands there already. -/
def locateNew (t : FileTree) (path : String) :
    Except FileFault (List String × Option FileEntry) :=
  let steps := stepsOf path
  match steps.getLast? with
  | none => if path.isEmpty then .error .notFound else .ok ([], some .directory)
  | some name =>
    match t.walk (t.startOf path) steps.dropLast with
    | .error fault => .error fault
    | .ok place =>
      if name = "." || name = ".." then
        match t.step place name with
        | .error fault => .error fault
        | .ok place => .ok (place, some .directory)
      else if !t.isDirectory place then .error .notDirectory
      else if endsInSlash path then .error .isDirectory
      else if maxNameSize < name.utf8ByteSize then .error .nameTooLong
      else .ok (place ++ [name], t.entry? (place ++ [name]))

/-- Reads a file. -/
def read (t : FileTree) (path : String) : Except FileFault String :=
  match t.locate path with
  | .error fault => .error fault
  | .ok place =>
    match t.entry? place with
    | some (.file text) => .ok text
    | some .directory => .error .isDirectory
    | none => .error .notFound

def write (t : FileTree) (path text : String) : Except FileFault FileTree :=
  match t.locateNew path with
  | .error fault => .error fault
  | .ok (_, some .directory) => .error .isDirectory
  | .ok (place, _) => .ok (t.put place (.file text))

def create (t : FileTree) (path text : String) : Except FileFault FileTree :=
  match t.locateNew path with
  | .error fault => .error fault
  | .ok (_, some _) => .error .alreadyExists
  | .ok (place, none) => .ok (t.put place (.file text))

/-- Walks some steps and makes the directories that are not there. What is made
before a fault stays. -/
def makeAlong (t : FileTree) (place : List String) :
    List String → FileTree × Except FileFault Unit
  | [] => (t, if t.isDirectory place then .ok () else .error .alreadyExists)
  | name :: names =>
    match t.step place name with
    | .ok next => makeAlong t next names
    | .error .notFound =>
      makeAlong (t.put (place ++ [name]) .directory) (place ++ [name]) names
    | .error fault => (t, .error fault)

def makeDirectories (t : FileTree) (path : String) :
    FileTree × Except FileFault Unit :=
  t.makeAlong (t.startOf path) (stepsOf path)

def pathOf (place : List String) : String := "/" ++ Text.join "/" place

/-- A place and those above it, the nearest first, given with its names in
reverse. -/
def upwardFrom : List String → List (List String)
  | [] => [[]]
  | name :: above => (name :: above).reverse :: upwardFrom above

def placesUpward (t : FileTree) (path : String) :
    Except FileFault (List String) :=
  match t.locate path with
  | .error fault => .error fault
  | .ok place => .ok ((upwardFrom place.reverse).map pathOf)

def commit (t : FileTree) :
    Except FileFault FileTree → Except FileFault Unit × FileTree
  | .ok changed => (.ok (), changed)
  | .error fault => (.error fault, t)

instance : FileSystem (StateM FileTree) where
  read path t := (t.read path, t)
  write path text t := commit t (t.write path text)
  create path text t := commit t (t.create path text)
  makeDirectories path t := (t.makeDirectories path).swap
  isFile path t := (match t.find? path with
    | some (.file _) => true
    | _ => false, t)
  isPresent path t := ((t.find? path).isSome, t)
  placesUpward path t := (t.placesUpward path, t)

end FileTree

end Scaffold

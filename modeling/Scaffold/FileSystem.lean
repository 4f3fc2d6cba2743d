/-!
What the program asks of a file system. The operations are a class, so that a
run is the same definition over the disk and over a tree of files in memory.
-/
namespace Scaffold

/-- Why a file system refuses an operation. -/
inductive FileFault
  | notFound
  | alreadyExists
  | notDirectory
  | isDirectory
  | nameTooLong
  | other (text : String)
  deriving DecidableEq, Repr

namespace FileFault

/-- The wording of a fault, with its number. -/
def message : FileFault → String
  | notFound => "No such file or directory (os error 2)"
  | alreadyExists => "File exists (os error 17)"
  | notDirectory => "Not a directory (os error 20)"
  | isDirectory => "Is a directory (os error 21)"
  | nameTooLong => "File name too long (os error 36)"
  | other text => text

end FileFault

/-- The operations on files; a path is absolute or relative to the working
directory. -/
class FileSystem (m : Type → Type) where
  /-- The text of a file. -/
  read : String → m (Except FileFault String)
  /-- Gives a file this text, whether it was there or not. -/
  write : String → String → m (Except FileFault Unit)
  /-- Makes a new file with this text. -/
  create : String → String → m (Except FileFault Unit)
  /-- Makes the directories on a path that are not there. -/
  makeDirectories : String → m (Except FileFault Unit)
  /-- Whether a path leads to a file. -/
  isFile : String → m Bool
  /-- Whether a path leads to anything. -/
  isPresent : String → m Bool
  /-- The place that a path leads to, and those above it, the nearest first, as
  absolute paths. -/
  placesUpward : String → m (Except FileFault (List String))

end Scaffold

import Scaffold.Yaml.Cursor
/-!
The tokens of documents. Block collections have tokens of their own, which stand
for the indentation that opens and closes them.
-/
namespace Scaffold.Yaml

/-- What a token is. -/
inductive TokenKind
  /-- The directive that tells the version of the format. -/
  | version (major minor : Nat)
  /-- The directive that lets a handle stand for the beginning of tags. -/
  | tagHandle (handle start : String)
  | documentStart
  | documentEnd
  | blockSequenceStart
  | blockMappingStart
  | blockEnd
  | flowSequenceStart
  | flowSequenceEnd
  | flowMappingStart
  | flowMappingEnd
  | blockEntry
  | flowEntry
  | key
  | value
  | alias (name : String)
  | anchor (name : String)
  /-- A tag as a handle, which is empty for a verbatim tag, and what stands
  behind it. -/
  | tag (handle suffix : String)
  | scalar (plain : Bool) (text : String)
  deriving DecidableEq, Repr

/-- A token and the line that it starts in, counted from zero. -/
structure Token where
  kind : TokenKind
  line : Nat
  deriving DecidableEq, Repr

end Scaffold.Yaml

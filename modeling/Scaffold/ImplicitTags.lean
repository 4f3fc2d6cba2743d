import Scaffold.Entries
import Scaffold.Text.Case
/-!
The tags that nameless elements get: by the tag of the element they stand in,
and otherwise one fallback within lines of text and another one elsewhere.
-/
namespace Scaffold

/-- Child tags by parent tag, and the two fallbacks. -/
structure ImplicitTags where
  entries : List (String × String)
  inlineFallback : String := "span"
  blockFallback : String := "div"
  deriving DecidableEq, Repr

namespace ImplicitTags

/-- A table of the given pairs of parent and child, as they are. -/
def ofEntries (entries : List (String × String)) : ImplicitTags := { entries }

def html : ImplicitTags :=
  ofEntries
    [("p", "span"), ("ul", "li"), ("ol", "li"), ("table", "tr"), ("tr", "td"),
      ("tbody", "tr"), ("thead", "tr"), ("tfoot", "tr"), ("colgroup", "col"),
      ("select", "option"), ("optgroup", "option"), ("audio", "source"),
      ("video", "source"), ("object", "param"), ("map", "area")]

/-- The child tag for a parent tag, which is looked up in lower case. -/
def lookup (table : ImplicitTags) (parent : String) : Option String :=
  table.entries.lookup (Text.lowercase parent)

/-- The table with the child tag of a parent tag set, which is entered in lower
case. -/
def insert (table : ImplicitTags) (parent child : String) : ImplicitTags :=
  { table with
    entries := Entries.put (Text.lowercase parent) child table.entries }

end ImplicitTags

end Scaffold

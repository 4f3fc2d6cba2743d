import Scaffold.Markup.Outline
import Scaffold.Markup.Tagged
import Scaffold.Node.Refinement
import Scaffold.Snippet.Resolution
/-!
The expansion of an abbreviation: read it, resolve its snippets, refine the
tree, and write the tree in the configured dialect. Only reading the
abbreviation itself can fail; a snippet that cannot be read is left unresolved
with a warning.
-/
namespace Scaffold

namespace Node

/-- The page of a tree in the configured dialect. -/
def page (c : Config) (nodes : List Node) : Markup.Page :=
  match c.dialect with
  | .pug => Markup.Outline.page c (.pug c.options) nodes
  | .haml => Markup.Outline.page c .haml nodes
  | .slim => Markup.Outline.page c .slim nodes
  | .html | .xhtml | .xml | .xsl | .jsx => Markup.Tagged.page c nodes

/-- The markup of a tree, with field numbers of any size. -/
def render (c : Config) (nodes : List Node) : String := (page c nodes).out.text

/-- The markup of a tree. There is none where a field number does not fit a
word, since the program stops there. -/
def render? (c : Config) (nodes : List Node) : Option String :=
  if (page c nodes).fits then some (render c nodes) else none

end Node

/-- What an expansion yields, with the warnings on the way and the number of
iterations of all repeaters, those of snippets included. -/
structure Expansion (α : Type) where
  result : α
  warnings : List String := []
  iterations : Nat := 0

namespace Expansion

/-- The unrolled tree with its snippets resolved. -/
def resolve (c : Config) (source : String) :
    Except AbbreviationError (Expansion (List Node)) :=
  match Node.ofSource? c.options.jsx (.ofConfig c) source with
  | .error e => .error e
  | .ok unrolled =>
    let (nodes, log) := Snippet.resolveNodes c [] unrolled.nodes
    .ok ⟨nodes, log.warnings, unrolled.iterations + log.iterations⟩

/-- The final tree of an abbreviation. -/
def tree (c : Config) (source : String) :
    Except AbbreviationError (Expansion (List Node)) :=
  match resolve c source with
  | .error e => .error e
  | .ok resolved =>
    .ok { resolved with result := Node.refine c resolved.result }

end Expansion

/-- The markup of an abbreviation, with field numbers of any size. -/
def expand (c : Config) (source : String) :
    Except AbbreviationError (Expansion String) :=
  match Expansion.tree c source with
  | .error e => .error e
  | .ok refined =>
    .ok ⟨Node.render c refined.result, refined.warnings, refined.iterations⟩

/-- What the program answers to an abbreviation. It stops without an answer
where the number of a field does not fit a word. -/
def expand? (c : Config) (source : String) :
    Option (Except AbbreviationError (Expansion String)) :=
  match Expansion.tree c source with
  | .error e => some (.error e)
  | .ok refined =>
    (Node.render? c refined.result).map fun markup =>
      .ok ⟨markup, refined.warnings, refined.iterations⟩

/-- An answer is the expansion. -/
theorem eq_expand_of_expand? {c : Config} {source : String}
    {answer : Except AbbreviationError (Expansion String)}
    (h : expand? c source = some answer) : answer = expand c source := by
  rw [expand?] at h
  rw [expand]
  cases htree : Expansion.tree c source with
  | error e =>
    rw [htree] at h
    exact (Option.some.inj h).symm
  | ok refined =>
    rw [htree] at h
    obtain ⟨markup, hmarkup, rfl⟩ := Option.map_eq_some_iff.1 h
    rw [Node.render?] at hmarkup
    split at hmarkup
    · obtain rfl := Option.some.inj hmarkup
      rfl
    · cases hmarkup

end Scaffold

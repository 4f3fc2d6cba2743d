import Scaffold.Attribute.Merge
import Scaffold.Bem
import Scaffold.Config
import Scaffold.Lorem
import Scaffold.Node.Labelled
import Scaffold.Random.ChaCha
/-!
The last pass over a tree before it is written out. Every node is refined before
those below it, which see its final name: nameless elements are named by where
they stand, declarations of one attribute are merged, placeholder text is drawn
from one source in the order of the nodes, labels lose what they do not need,
and class names are expanded.
-/
namespace Scaffold.Node

open Scaffold.Random

/-- What a node shows to the nodes below it. -/
structure Frame where
  name : Option String := none
  copy : Option Repeat := none
  classes : Bem.Classes := {}
  deriving DecidableEq, Repr

/-- The name for a nameless element below the given nodes, the innermost
first. -/
def implicitName (c : Config) (above : List Frame) : String :=
  let parent := Text.lowercase ((above.findSome? (·.name)).getD "")
  match c.implicitTags.lookup parent with
  | some child => child
  | none =>
    if c.options.isInline parent then c.implicitTags.inlineFallback
    else c.implicitTags.blockFallback

/-- Names an element that has attributes but no name. -/
def nameImplicitly (c : Config) (above : List Frame) (t : Tag) : Tag :=
  if t.name.isNone && t.attributes.isSome then
    { t with name := some (implicitName c above) }
  else t

/-- Merges the declarations of each attribute. -/
def mergeAttributes (c : Config) (t : Tag) : Tag :=
  { t with attributes := t.attributes.map (Attribute.merge
    c.options.reverseAttributes) }

/-- Turns an element whose name asks for placeholder text into that text. A copy
below other nodes becomes an element again. Only the first copy has the
vocabulary's opening. -/
def fillLorem {σ : Type} [Source σ] (c : Config) (above : List Frame) (t : Tag)
    (s : σ) : Tag × σ :=
  match t.name.bind Lorem.Request.ofName? with
  | none => (t, s)
  | some request =>
    let copy := t.copy.or (above.findSome? (·.copy))
    let opens := (copy.map (·.value == 0)).getD true
    let (text, s) := (request.draw Lorem.attempts opens s).getD ("", s)
    let plain : Tag :=
      { t with name := none, attributes := none, value := some [.text text] }
    if t.copy.isSome && !above.isEmpty then
      ({ plain with name := some (implicitName c above) }, s)
    else (plain, s)

/-- A stylesheet variable with content does not also select it. -/
def dropSelect (t : Tag) (hasChildren : Bool) : Tag :=
  if (t.name == some "xsl:variable" || t.name == some "xsl:with-param")
      && (hasChildren || t.value.isSome) then
    { t with attributes := t.attributes.map (·.filter (!·.hasName "select")) }
  else t

/-- Expands the class names of a tag, if that is wanted. -/
def expandClasses (c : Config) (above : List Frame) (t : Tag) :
    Tag × Bem.Classes :=
  if c.options.bem.enabled then
    Bem.expand c.options.bem (above.map (·.classes)) t
  else (t, {})

variable {σ : Type} [Source σ]

mutual

/-- Refines a node below the given ones, the innermost first. -/
def refineNode (c : Config) (above : List Frame) : Node → σ → Node × σ
  | ⟨tag, children⟩, s =>
    let tag := mergeAttributes c (nameImplicitly c above tag)
    let (tag, s) := fillLorem c above tag s
    let tag :=
      if c.dialect = .xsl then dropSelect tag (!children.isEmpty) else tag
    let labelled := relabel tag children
    let (tag, classes) := expandClasses c above labelled.1
    let (below, s) :=
      refineNodes c (⟨tag.name, tag.copy, classes⟩ :: above) labelled.2 s
    (⟨tag, below⟩, s)
termination_by n => 2 * size n + 1
decreasing_by
  simp [size]
  omega

def refineNodes (c : Config) (above : List Frame) :
    List Node → σ → List Node × σ
  | [], s => ([], s)
  | n :: ns, s =>
    let (n, s) := refineNode c above n s
    let (ns, s) := refineNodes c above ns s
    (n :: ns, s)
termination_by ns => 2 * sizes ns + 2
decreasing_by
  · simp only [sizes]
    omega
  · simp [sizes]
    exact size_pos _

end

/-- Refines a whole tree, with placeholder text from the configured seed on or
else from the drawn one. -/
def refine (c : Config) (nodes : List Node) : List Node :=
  (refineNodes c [] nodes (ChaCha.ofSeed (c.loremSeed.getD c.drawnSeed))).1

end Scaffold.Node

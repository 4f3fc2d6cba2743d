/-!
Sets of characters given as ranges of code points. The Unicode property tables
are such lists of ranges; membership is a search through the list.
-/
namespace Scaffold.Text

/-- Whether a character's code point lies in one of the ranges, both ends
included. -/
def inRanges (ranges : List (Nat × Nat)) (c : Char) : Bool :=
  ranges.any fun r => r.1 ≤ c.toNat && c.toNat ≤ r.2

end Scaffold.Text

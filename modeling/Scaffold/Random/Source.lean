/-!
Sources of random words, and numbers drawn evenly from a range. A drawn word
that would favour some numbers is thrown away and another one is drawn, so every
draw carries the number of attempts that it may take, and has no result if they
run out.
-/
namespace Scaffold.Random

/-- A state that yields one 64-bit word after the other. -/
class Source (σ : Type) where
  next : σ → UInt64 × σ

/-- A computation that draws from a source and has no result if attempts run
out. -/
abbrev Draw (σ : Type) (α : Type) := σ → Option (α × σ)

/-- The largest low half that a product with `count` may have: the multiples of
`count` below it all occur equally often. -/
def zone (count : Nat) : Nat := count * Nat.pow 2 (63 - Nat.log2 count) - 1

/-- Draws evenly from the numbers below `count`: the high half of the product of
a word and the count, unless the low half is outside the zone. -/
def below {σ : Type} [Source σ] (count : Nat) : Nat → Draw σ Nat
  | 0, _ => none
  | attempts + 1, s =>
    let (word, s) := Source.next s
    let product := word.toNat * count
    if product % Nat.pow 2 64 ≤ zone count then some (product / Nat.pow 2 64, s)
    else below count attempts s

/-- Draws evenly from the numbers from `first` up to `last`; one is drawn even
if the two are the same. -/
def within {σ : Type} [Source σ] (attempts first last : Nat) :
    Draw σ Nat := fun s =>
  match below (last - first + 1) attempts s with
  | some (n, s) => some (first + n, s)
  | none => none

/-- Draws evenly from the numbers from `first` up to but not including `stop`;
nothing is drawn from an empty range, which gives `first`. -/
def between {σ : Type} [Source σ] (attempts first stop : Nat) :
    Draw σ Nat := fun s =>
  if first < stop then within attempts first (stop - 1) s else some (first, s)

end Scaffold.Random

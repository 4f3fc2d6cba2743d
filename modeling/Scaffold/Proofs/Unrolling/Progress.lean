import Scaffold.Node.Unrolling
/-!
What the steps of unrolling do to the budget and to the number of iterations:
reading tokens leaves both alone, and each iteration moves one from the budget
to the count.
-/
namespace Scaffold.Unrolling

namespace Progress

variable (p : Progress)

@[simp]
theorem budget_tick : p.tick.budget = p.budget - 1 := rfl

@[simp]
theorem iterations_tick : p.tick.iterations = p.iterations + 1 := rfl

@[simp]
theorem budget_reading (tokens : List Token) :
    (p.reading tokens).budget = p.budget := by
  rw [reading]
  split <;> rfl

@[simp]
theorem iterations_reading (tokens : List Token) :
    (p.reading tokens).iterations = p.iterations := by
  rw [reading]
  split <;> rfl

@[simp]
theorem budget_readingOption (tokens : Option (List Token)) :
    (p.readingOption tokens).budget = p.budget := p.budget_reading _

@[simp]
theorem iterations_readingOption (tokens : Option (List Token)) :
    (p.readingOption tokens).iterations = p.iterations := p.iterations_reading _

@[simp]
theorem budget_readingAttributes (attributes : List AttributeTokens) :
    (p.readingAttributes attributes).budget = p.budget := by
  rw [readingAttributes]
  induction attributes generalizing p with
  | nil => rfl
  | cons a rest ih => simp [ih]

@[simp]
theorem iterations_readingAttributes (attributes : List AttributeTokens) :
    (p.readingAttributes attributes).iterations = p.iterations := by
  rw [readingAttributes]
  induction attributes generalizing p with
  | nil => rfl
  | cons a rest ih => simp [ih]

end Progress

end Scaffold.Unrolling

import Scaffold.Proofs.Unrolling.Progress
/-!
Loops that the budget covers.  As long as the budget has an iteration for every
copy that is asked for, no loop ends early: a loop is its first copy and the
loop over the others, and it takes exactly the iterations that were asked for,
whatever has become of the replacement text.
-/
namespace Scaffold.Unrolling

/-- What a statement repeats, made once as part of a copy. -/
def statementOnce (s : Settings) :
    Statement → Option Repeat → Chain → Progress → List Node × Progress
  | .element e children, copy, chain, p =>
      elementNodes s chain copy e (statementsNodes s chain children) p
  | .group children _, copy, chain, p =>
      ((statementsNodes s chain children p).1.map (inCopy copy),
        (statementsNodes s chain children p).2)

theorem statementNodes_eq (s : Settings) (chain : Chain) (t : Statement)
    (p : Progress) :
    statementNodes s chain t p =
      repeated s chain t.repeater (statementOnce s t) p := by
  cases t with
  | element e children =>
      rw [statementNodes]
      rfl
  | group children r =>
      rw [statementNodes]
      rfl

theorem statementsNodes_cons (s : Settings) (chain : Chain) (t : Statement)
    (ts : List Statement) (p : Progress) :
    statementsNodes s chain (t :: ts) p =
      ((statementNodes s chain t p).1 ++
        (statementsNodes s chain ts (statementNodes s chain t p).2).1,
        (statementsNodes s chain ts (statementNodes s chain t p).2).2) := by
  rw [statementsNodes]

/-! ### Rounds -/

/-- Whether a round of a loop fills in replacement text. -/
def fills (implicit : Bool) (round : List Node × Progress) : Bool :=
  implicit && !round.2.inserted && !round.1.isEmpty

/-- What a round yields, with the text of its copy filled in where it has to
be. -/
def roundNodes (s : Settings) (copy : Repeat) (round : List Node × Progress) :
    List Node :=
  if fills copy.implicit round then
    fillDeepest (s.textAt (some copy.value)) round.1
  else round.1

def behindRound (implicit : Bool) (round : List Node × Progress) : Progress :=
  (if fills implicit round then { round.2 with consumed := true }
    else round.2).tick

@[simp]
theorem budget_behindRound (implicit : Bool) (round : List Node × Progress) :
    (behindRound implicit round).budget = round.2.budget - 1 := by
  rw [behindRound, Progress.budget_tick]
  split <;> rfl

@[simp]
theorem iterations_behindRound (implicit : Bool)
    (round : List Node × Progress) :
    (behindRound implicit round).iterations = round.2.iterations + 1 := by
  rw [behindRound, Progress.iterations_tick]
  split <;> rfl

@[simp]
theorem inserted_behindRound (implicit : Bool) (round : List Node × Progress) :
    (behindRound implicit round).inserted = round.2.inserted := by
  rw [behindRound, Progress.tick]
  split <;> rfl

theorem consumed_behindRound (implicit : Bool) (round : List Node × Progress) :
    (behindRound implicit round).consumed =
      (round.2.consumed || fills implicit round) := by
  rw [behindRound, Progress.tick]
  split <;> simp_all

section Loop

variable (s : Settings) (chain : Chain) (implicit : Bool) (count : Nat)
  (once : Option Repeat → Chain → Progress → List Node × Progress)

/-- A round of the loop over copies. -/
def roundAt (value : Nat) (p : Progress) : List Node × Progress :=
  once (some ⟨count, value, implicit⟩) (⟨count, value, implicit⟩ :: chain) p

theorem copiesFrom_cons (left : Nat) (p : Progress) :
    copiesFrom s chain implicit count once (left + 1) p =
      (let round := roundAt chain implicit count once (count - (left + 1)) p
       let nodes := roundNodes s ⟨count, count - (left + 1), implicit⟩ round
       let rest := copiesFrom s chain implicit count once left
         (behindRound implicit round)
       if (behindRound implicit round).budget = 0 then
         (nodes, behindRound implicit round)
       else (nodes ++ rest.1, rest.2)) := by
  rw [copiesFrom]
  rfl

end Loop

/-- With a budget of at least `rounds`, a run takes that many iterations off
it. -/
def Takes (rounds : Nat) (run : Progress → List Node × Progress) : Prop :=
  ∀ p, rounds ≤ p.budget →
    (run p).2.budget = p.budget - rounds ∧
      (run p).2.iterations = p.iterations + rounds

namespace Settings

/-- The rounds of a repeater around something that itself takes some rounds. -/
def repeatedRounds (s : Settings) (r : Option Repeater) (inside : Nat) : Nat :=
  match r with
  | none => inside
  | some r => s.copies r * (inside + 1)

mutual

/-- The rounds that all repeaters of a statement ask for. -/
def rounds (s : Settings) : Statement → Nat
  | .element e children => s.repeatedRounds e.repeater (s.roundsOf children)
  | .group children r => s.repeatedRounds r (s.roundsOf children)

def roundsOf (s : Settings) : List Statement → Nat
  | [] => 0
  | t :: rest => s.rounds t + s.roundsOf rest

end

theorem rounds_eq (s : Settings) (t : Statement) :
    s.rounds t = s.repeatedRounds t.repeater (s.roundsOf t.children) := by
  cases t <;> rw [rounds] <;> rfl

end Settings

section Covered

variable {s : Settings} {chain : Chain} {implicit : Bool} {count inside : Nat}
  {once : Option Repeat → Chain → Progress → List Node × Progress}

/-- A loop that the budget covers goes on behind each of its copies.  The budget
can be used up only behind the last one, where going on makes no difference. -/
theorem copiesFrom_of_takes (honce : ∀ copy chain,
    Takes inside (once copy chain)) {left : Nat}
    {p : Progress} (hp : (left + 1) * (inside + 1) ≤ p.budget) :
    copiesFrom s chain implicit count once (left + 1) p =
      (let round := roundAt chain implicit count once (count - (left + 1)) p
       let rest := copiesFrom s chain implicit count once left
         (behindRound implicit round)
       (roundNodes s ⟨count, count - (left + 1), implicit⟩ round ++ rest.1,
         rest.2)) := by
  rw [Nat.succ_mul] at hp
  obtain ⟨hbudget, -⟩ := honce (some ⟨count, count - (left + 1), implicit⟩)
    (⟨count, count - (left + 1), implicit⟩ :: chain) p (by omega)
  rw [copiesFrom_cons]
  dsimp only
  split
  · next hspent =>
      rw [budget_behindRound, roundAt, hbudget] at hspent
      have hlast : left = 0 := by
        rcases Nat.eq_zero_or_pos left with hzero | hmore
        · exact hzero
        · have := Nat.le_mul_of_pos_left (inside + 1) hmore
          omega
      subst hlast
      rw [copiesFrom, List.append_nil]
  · rfl

theorem budget_behindRoundAt (chain : Chain) (implicit : Bool)
    (count value : Nat) (honce : ∀ copy chain, Takes inside (once copy chain))
    {p : Progress} (hp : inside + 1 ≤ p.budget) :
    (behindRound implicit (roundAt chain implicit count once value p)).budget =
        p.budget - (inside + 1) ∧
      (behindRound implicit
        (roundAt chain implicit count once value p)).iterations =
        p.iterations + (inside + 1) := by
  obtain ⟨hbudget, hiterations⟩ := honce (some ⟨count, value, implicit⟩)
    (⟨count, value, implicit⟩ :: chain) p (by omega)
  rw [budget_behindRound, iterations_behindRound, roundAt, hbudget, hiterations]
  exact ⟨by omega, by omega⟩

/-- A loop that the budget covers, by induction on the copies that are left:
each of its rounds is covered, and what it yields comes in front of what the
rest of the loop does. -/
theorem copiesFrom_induction
    (honce : ∀ copy chain, Takes inside (once copy chain))
    {motive : Nat → Progress → List Node × Progress → Prop}
    (hnone : ∀ p, motive 0 p ([], p))
    (hround : ∀ left p rest, inside + 1 ≤ p.budget →
      motive left (behindRound implicit (roundAt chain implicit count once
          (count - (left + 1)) p)) rest → motive (left + 1) p
      (roundNodes s ⟨count, count - (left + 1), implicit⟩ (roundAt chain
          implicit count once (count - (left + 1)) p) ++ rest.1, rest.2))
    {left : Nat} {p : Progress} (hp : left * (inside + 1) ≤ p.budget) :
    motive left p (copiesFrom s chain implicit count once left p) := by
  induction left generalizing p with
  | zero =>
      rw [copiesFrom]
      exact hnone p
  | succ left ih =>
      rw [copiesFrom_of_takes honce hp]
      rw [Nat.succ_mul] at hp
      obtain ⟨hbudget, -⟩ :=
        budget_behindRoundAt chain implicit count (count - (left + 1)) honce
          (p := p) (by omega)
      exact hround left p _ (by omega) (ih (by rw [hbudget]; omega))

theorem takes_copiesFrom (honce : ∀ copy chain, Takes inside (once copy chain))
    (left : Nat) :
    Takes (left * (inside + 1))
      (copiesFrom s chain implicit count once left) := by
  intro p hp
  refine copiesFrom_induction (motive := fun left p run =>
    run.2.budget = p.budget - left * (inside + 1) ∧
      run.2.iterations = p.iterations + left * (inside + 1)) honce
        (by simp) ?_ hp
  rintro left p rest hcovered ⟨hbudget', hiterations'⟩
  obtain ⟨hbudget, hiterations⟩ :=
    budget_behindRoundAt chain implicit count
      (count - (left + 1)) honce hcovered
  dsimp only
  rw [hbudget', hiterations', hbudget, hiterations, Nat.succ_mul]
  exact ⟨by omega, by omega⟩

theorem takes_repeated (honce : ∀ copy chain, Takes inside (once copy chain))
    (r : Option Repeater) :
    Takes (s.repeatedRounds r inside) (repeated s chain r once) := by
  cases r with
  | none => exact honce none chain
  | some r =>
      intro p hp
      have hloop : Takes (s.copies r * (inside + 1))
          (copiesFrom s chain r.implicit (s.copies r) once (s.copies r)) :=
        takes_copiesFrom honce (s.copies r)
      simp only [repeated]
      split <;> exact hloop p hp

end Covered

section Statements

variable (s : Settings)

mutual

theorem takes_statementOnce (t : Statement) (copy : Option Repeat)
    (chain : Chain) :
    Takes (s.roundsOf t.children) (statementOnce s t copy chain) := by
  match t with
  | .element e children =>
      change Takes (s.roundsOf children) _
      intro p hp
      have hbelow := takes_statementsNodes children chain
        ((p.readingOption e.name).readingOption e.value) (by simpa using hp)
      simp only [statementOnce, elementNodes]
      split <;> simpa using hbelow
  | .group children r => exact takes_statementsNodes children chain

theorem takes_statementNodes (t : Statement) (chain : Chain) :
    Takes (s.rounds t) (statementNodes s chain t) := by
  have honce : ∀ copy chain,
      Takes (s.roundsOf t.children) (statementOnce s t copy chain) :=
    fun copy chain => takes_statementOnce t copy chain
  intro p hp
  rw [s.rounds_eq] at hp ⊢
  rw [statementNodes_eq]
  exact takes_repeated honce t.repeater p hp

theorem takes_statementsNodes (ts : List Statement) (chain : Chain) :
    Takes (s.roundsOf ts) (statementsNodes s chain ts) := by
  match ts with
  | [] =>
      intro p _
      simp [statementsNodes, Settings.roundsOf]
  | t :: ts =>
      intro p hp
      rw [Settings.roundsOf] at hp ⊢
      obtain ⟨hbudget, hiterations⟩ := takes_statementNodes t chain p (by omega)
      obtain ⟨hbudget', hiterations'⟩ :=
        takes_statementsNodes ts chain (statementNodes s chain t p).2 (by omega)
      rw [statementsNodes_cons]
      dsimp only
      rw [hbudget', hiterations', hbudget, hiterations]
      exact ⟨by omega, by omega⟩

end

end Statements

end Scaffold.Unrolling

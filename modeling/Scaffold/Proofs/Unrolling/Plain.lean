import Mathlib.Tactic.ByContra
import Scaffold.Proofs.Unrolling.Progress
/-!
Unrolling without a budget.  The plain unrolling of statements with explicit
repeaters has no counter: a repeated statement is the concatenation of its
copies, each in its own chain.  As long as the budget covers the rounds that all
repeaters ask for, the guarded unrolling yields the very same nodes and spends
exactly these rounds.  Main statement: `unroll_eq_plainForest`.
-/
namespace Scaffold.Unrolling

/-- The nodes of one copy of an element above given nodes. -/
def plainElement (s : Settings) (chain : Chain) (copy : Option Repeat)
    (e : ElementTokens) (below : List Node) : List Node :=
  let tag : Tag := { bareTag s chain copy e with
    attributes := e.attributes.map (·.map (attributeOf s chain)) }
  if tag.isText && tag.value.isSome && !tag.hasField then ⟨tag, []⟩ :: below
  else [⟨tag, below⟩]

/-- The number of copies that an explicit repeater makes. -/
def plainCount (r : Repeater) : Nat := max r.count 1

def plainCopy (count value : Nat) : Repeat := ⟨count, value, false⟩

/-- A node that is made within a copy.  One that a repeater further inside has
made keeps the copy it is from. -/
def plainWithin (copy : Option Repeat) : Node → Node
  | ⟨tag, children⟩ =>
      match tag.copy with
      | some _ => ⟨tag, children⟩
      | none => ⟨{ tag with copy := copy }, children⟩

theorem plainWithin_eq (copy : Option Repeat) :
    plainWithin copy = inCopy copy := by
  funext n
  obtain ⟨⟨name, value, attributes, own, selfClosing⟩, children⟩ := n
  cases own with
  | some own => rfl
  | none => rfl

/-- All copies of what `once` says, or that alone if nothing repeats it. -/
def plainCopies (chain : Chain) (r : Option Repeater)
    (once : Option Repeat → Chain → List Node) : List Node :=
  match r with
  | none => once none chain
  | some r => (List.range (plainCount r)).flatMap fun i =>
      once (some (plainCopy (plainCount r) i))
        (plainCopy (plainCount r) i :: chain)

mutual

def plainNodes (s : Settings) (chain : Chain) : Statement → List Node
  | .element e children =>
      plainCopies chain e.repeater fun copy chain =>
        plainElement s chain copy e (plainForest s chain children)
  | .group children r =>
      plainCopies chain r fun copy chain =>
        (plainForest s chain children).map (plainWithin copy)

def plainForest (s : Settings) (chain : Chain) : List Statement → List Node
  | [] => []
  | t :: rest => plainNodes s chain t ++ plainForest s chain rest

end

/-- The rounds of a repeater around something that itself takes some rounds. -/
def repeatedRounds (r : Option Repeater) (inside : Nat) : Nat :=
  match r with
  | none => inside
  | some r => plainCount r * (inside + 1)

mutual

/-- The rounds that all repeaters of a statement take in its plain unrolling. -/
def rounds : Statement → Nat
  | .element e children => repeatedRounds e.repeater (forestRounds children)
  | .group children r => repeatedRounds r (forestRounds children)

def forestRounds : List Statement → Nat
  | [] => 0
  | t :: rest => rounds t + forestRounds rest

end

/-- No repeater, or one with a written count. -/
def isExplicitRepeater (r : Option Repeater) : Bool := r.all (!·.implicit)

mutual

/-- All repeaters of a statement have a written count. -/
def isExplicit : Statement → Bool
  | .element e children =>
      isExplicitRepeater e.repeater && isExplicitForest children
  | .group children r => isExplicitRepeater r && isExplicitForest children

def isExplicitForest : List Statement → Bool
  | [] => true
  | t :: rest => isExplicit t && isExplicitForest rest

end

/-- With a budget of at least `rounds`, a run yields exactly the given nodes,
and takes that many iterations off the budget. -/
def Affords (rounds : Nat) (run : Progress → List Node × Progress)
    (nodes : List Node) : Prop :=
  ∀ p, rounds ≤ p.budget →
    (run p).1 = nodes ∧ (run p).2.budget = p.budget - rounds ∧
      (run p).2.iterations = p.iterations + rounds

theorem affords_append {first second run : Progress → List Node × Progress}
    {m n : Nat} {nodes more : List Node} (hfirst : Affords m first nodes)
    (hsecond : Affords n second more)
    (hrun : ∀ p,
      run p = ((first p).1 ++ (second (first p).2).1, (second (first p).2).2)) :
    Affords (m + n) run (nodes ++ more) := by
  intro p hp
  obtain ⟨hnodes, hbudget, hiterations⟩ := hfirst p (by omega)
  obtain ⟨hnodes', hbudget', hiterations'⟩ := hsecond (first p).2 (by omega)
  rw [hrun]
  refine ⟨by rw [hnodes, hnodes'], ?_, ?_⟩
  · rw [hbudget', hbudget, Nat.sub_sub]
  · rw [hiterations', hiterations, Nat.add_assoc]

theorem affords_element (s : Settings) (chain : Chain) (copy : Option Repeat)
    (e : ElementTokens) {children : Progress → List Node × Progress} {n : Nat}
    {below : List Node} (hchildren : Affords n children below) :
    Affords n (elementNodes s chain copy e children)
      (plainElement s chain copy e below) := by
  intro p hp
  obtain ⟨hnodes, hbudget, hiterations⟩ :=
    hchildren ((p.readingOption e.name).readingOption e.value)
      (by simpa using hp)
  simp only [Progress.budget_readingOption, Progress.iterations_readingOption]
    at hbudget hiterations
  simp only [elementNodes, plainElement, hnodes]
  split <;> simp [hbudget, hiterations]

/-- The copies still to be made, as the loop makes them: if the budget covers
them all, it is used up at the last copy at the earliest, where stopping makes
no difference. -/
theorem affords_copiesFrom (s : Settings) (chain : Chain) {count inside : Nat}
    {once : Option Repeat → Chain → Progress → List Node × Progress}
    {plain : Option Repeat → Chain → List Node}
    (honce : ∀ copy chain, Affords inside (once copy chain) (plain copy chain))
    {left : Nat} (hleft : left ≤ count) :
    Affords (left * (inside + 1)) (copiesFrom s chain false count once left)
      ((List.range' (count - left) left).flatMap fun i =>
        plain (some (plainCopy count i)) (plainCopy count i :: chain)) := by
  induction left with
  | zero =>
      intro p _
      simp [copiesFrom]
  | succ left ih =>
      intro p hp
      rw [Nat.succ_mul] at hp
      obtain ⟨hnodes, hbudget, hiterations⟩ :=
        honce (some (plainCopy count (count - (left + 1))))
          (plainCopy count (count - (left + 1)) :: chain) p (by omega)
      simp only [plainCopy] at hnodes hbudget hiterations
      have hnext : count - (left + 1) + 1 = count - left := by omega
      rw [copiesFrom, List.range'_succ, List.flatMap_cons, hnext]
      simp only [Bool.false_and, Bool.false_eq_true, if_false,
        Progress.budget_tick, hbudget, plainCopy, hnodes]
      split
      · rename_i hspent
        -- Any copy still to come would need a round of the budget, and none is
        -- left.
        have hlast : left = 0 := by
          by_contra hmore
          have := Nat.le_mul_of_pos_left (inside + 1) (Nat.pos_of_ne_zero hmore)
          omega
        subst hlast
        simp only [List.range'_zero, List.flatMap_nil, List.append_nil,
          Progress.budget_tick, Progress.iterations_tick, hbudget,
          hiterations, true_and]
        omega
      · rename_i hspare
        obtain ⟨hmore, hbudget', hiterations'⟩ := ih (Nat.le_of_succ_le hleft)
          (once (some ⟨count, count - (left + 1), false⟩)
            (⟨count, count - (left + 1), false⟩ :: chain) p).2.tick
          (by rw [Progress.budget_tick, hbudget]; omega)
        simp only [plainCopy, Progress.budget_tick, Progress.iterations_tick,
          hbudget, hiterations] at hmore hbudget' hiterations'
        rw [Nat.succ_mul]
        refine ⟨by rw [hmore], ?_, ?_⟩
        · dsimp only
          omega
        · dsimp only
          omega

theorem affords_repeated (s : Settings) (chain : Chain) {r : Option Repeater}
    (explicit : isExplicitRepeater r = true) {inside : Nat}
    {once : Option Repeat → Chain → Progress → List Node × Progress}
    {plain : Option Repeat → Chain → List Node}
    (honce : ∀ copy chain,
      Affords inside (once copy chain) (plain copy chain)) :
    Affords (repeatedRounds r inside) (repeated s chain r once)
      (plainCopies chain r plain) := by
  cases r with
  | none => exact honce none chain
  | some r =>
      have himplicit : r.implicit = false := by
        simpa [isExplicitRepeater] using explicit
      have hcount : s.copies r = plainCount r := by
        simp only [Settings.copies, plainCount, himplicit]
        split <;> rfl
      have hcopies :=
        affords_copiesFrom s chain honce (Nat.le_refl (plainCount r))
      rw [Nat.sub_self, ← List.range_eq_range'] at hcopies
      intro p hp
      simp only [repeated, hcount, himplicit, plainCopies, repeatedRounds]
        at hp ⊢
      exact hcopies p hp

mutual

theorem affords_statement (s : Settings) (chain : Chain) (t : Statement)
    (explicit : isExplicit t = true) :
    Affords (rounds t) (statementNodes s chain t) (plainNodes s chain t) := by
  match t with
  | .element e children =>
      simp only [isExplicit, Bool.and_eq_true] at explicit
      simp only [statementNodes, plainNodes, rounds]
      apply affords_repeated s chain explicit.1
      intro copy chain
      exact affords_element s chain copy e
        (affords_forest s chain children explicit.2)
  | .group children r =>
      simp only [isExplicit, Bool.and_eq_true] at explicit
      simp only [statementNodes, plainNodes, rounds]
      apply affords_repeated s chain explicit.1
      intro copy chain p hp
      obtain ⟨hnodes, hprogress⟩ :=
        affords_forest s chain children explicit.2 p hp
      rw [plainWithin_eq]
      exact ⟨congrArg (List.map (inCopy copy)) hnodes, hprogress⟩

theorem affords_forest (s : Settings) (chain : Chain) (ts : List Statement)
    (explicit : isExplicitForest ts = true) :
    Affords (forestRounds ts) (statementsNodes s chain ts)
      (plainForest s chain ts) := by
  match ts with
  | [] =>
      intro p _
      simp [statementsNodes, plainForest, forestRounds]
  | t :: rest =>
      simp only [isExplicitForest, Bool.and_eq_true] at explicit
      simp only [plainForest, forestRounds]
      apply affords_append (affords_statement s chain t explicit.1)
        (affords_forest s chain rest explicit.2)
      intro p
      rw [statementsNodes]

end

section MaxRepeat

/-! Nothing that is written depends on the budget. -/

variable (s : Settings) (n : Nat)

theorem tokenText_maxRepeat :
    tokenText { s with maxRepeat := n } = tokenText s := rfl

theorem nameText_maxRepeat : nameText { s with maxRepeat := n } = nameText s :=
  rfl

theorem piecesFrom_maxRepeat (chain : Chain) (text : String) (ts : List Token) :
    piecesFrom { s with maxRepeat := n } chain text ts =
      piecesFrom s chain text ts := by
  induction ts generalizing text with
  | nil => rfl
  | cons t ts ih =>
      rw [piecesFrom, piecesFrom, tokenText_maxRepeat]
      simp only [ih]

theorem pieces_maxRepeat : pieces { s with maxRepeat := n } = pieces s := by
  funext chain ts
  exact piecesFrom_maxRepeat s n chain "" ts

theorem plainElement_maxRepeat :
    plainElement { s with maxRepeat := n } = plainElement s := by
  have hbare : bareTag { s with maxRepeat := n } = bareTag s := by
    funext chain copy e
    simp only [bareTag, nameText_maxRepeat, pieces_maxRepeat]
  have hattribute : attributeOf { s with maxRepeat := n } = attributeOf s := by
    funext chain a
    simp only [attributeOf, nameText_maxRepeat, pieces_maxRepeat]
  funext chain copy e below
  rw [plainElement, plainElement, hbare, hattribute]

mutual

theorem plainNodes_maxRepeat (chain : Chain) (t : Statement) :
    plainNodes { s with maxRepeat := n } chain t = plainNodes s chain t := by
  match t with
  | .element e children =>
      simp only [plainNodes, plainElement_maxRepeat,
        fun chain => plainForest_maxRepeat chain children]
  | .group children r =>
      simp only [plainNodes, fun chain => plainForest_maxRepeat chain children]

theorem plainForest_maxRepeat (chain : Chain) (ts : List Statement) :
    plainForest { s with maxRepeat := n } chain ts =
      plainForest s chain ts := by
  match ts with
  | [] => rfl
  | t :: rest =>
      rw [plainForest, plainForest, plainNodes_maxRepeat chain t,
        plainForest_maxRepeat chain rest]

end

end MaxRepeat

theorem unroll_of_text_eq_none {s : Settings} (text : s.text = none)
    (statements : List Statement) :
    unroll s statements =
      ⟨(statementsNodes s [] statements { budget := max s.maxRepeat 1 }).1,
        (statementsNodes s [] statements
          { budget := max s.maxRepeat 1 }).2.iterations⟩ := by
  simp only [unroll, text]

/-- Within its budget, unrolling without replacement text is the plain
unrolling, and it makes exactly the rounds that the repeaters ask for.  Hence
budgets that suffice make no difference. -/
theorem unroll_eq_plainForest {s : Settings} (text : s.text = none)
    {statements : List Statement}
    (explicit : isExplicitForest statements = true)
    (enough : forestRounds statements ≤ s.maxRepeat) :
    unroll s statements =
      ⟨plainForest s [] statements, forestRounds statements⟩ ∧
      ∀ n, forestRounds statements ≤ n →
        unroll { s with maxRepeat := n } statements = unroll s statements := by
  have within : ∀ n, forestRounds statements ≤ n →
      unroll { s with maxRepeat := n } statements =
        ⟨plainForest s [] statements, forestRounds statements⟩ := by
    intro n hn
    obtain ⟨hnodes, -, hiterations⟩ :=
      affords_forest { s with maxRepeat := n } [] statements explicit
        { budget := max n 1 } (Nat.le_trans hn (Nat.le_max_left n 1))
    have hsettings : ({ s with maxRepeat := n } : Settings).text = none := text
    rw [unroll_of_text_eq_none hsettings, hnodes, hiterations, Nat.zero_add,
      plainForest_maxRepeat]
  have hself := within s.maxRepeat enough
  exact ⟨hself, fun n hn => (within n hn).trans hself.symm⟩

namespace PlainWitness

/-- The statements of `(dt+dd*3{$})*2`. -/
def statements : List Statement :=
  [.group
    [.element { name := some [⟨.literal "dt", 1, 3⟩] } [],
     .element { name := some [⟨.literal "dd", 4, 6⟩],
                value := some [⟨.number { width := 1 }, 9, 10⟩],
                repeater := some ⟨3, false⟩ } []]
    (some ⟨2, false⟩)]

/-- Two rounds of a group and three of an element in each just use up a budget
of eight. -/
theorem unroll_eq_plainForest_eight :
    ({ maxRepeat := 8 } : Settings).text = none ∧
    isExplicitForest statements = true ∧
      forestRounds statements ≤ 8 ∧
      unroll { maxRepeat := 8 } statements =
        ⟨plainForest { maxRepeat := 8 } [] statements, 8⟩ :=
  ⟨rfl, by decide, by decide, (unroll_eq_plainForest (s := { maxRepeat := 8 })
    rfl (by decide) (by decide)).1⟩

end PlainWitness

end Scaffold.Unrolling

import Scaffold.Node.Labelled
import Scaffold.Proofs.Unrolling.Progress
/-!
The budget bounds every unrolling.  A loop that finds the budget used up still
finishes the copy it is at, but none makes a second copy from then on: over a
whole run each repeater overruns at most once, however the repeaters are nested.
Each iteration visits an element at most once, which bounds the nodes as well.
Main statement: `unroll_bounded`.
-/
namespace Scaffold

namespace Statement

mutual

/-- The number of statements in a statement that carry a repeater. -/
def repeaterCount : Statement → Nat
  | .element e children =>
      repeaterCounts children + if e.repeater.isSome then 1 else 0
  | .group children r => repeaterCounts children + if r.isSome then 1 else 0

def repeaterCounts : List Statement → Nat
  | [] => 0
  | t :: rest => repeaterCount t + repeaterCounts rest

end

mutual

/-- The number of elements in a statement. -/
def elementCount : Statement → Nat
  | .element _ children => elementCounts children + 1
  | .group children _ => elementCounts children

def elementCounts : List Statement → Nat
  | [] => 0
  | t :: rest => elementCount t + elementCounts rest

end

end Statement

namespace Node

theorem sizes_append (ns ms : List Node) :
    sizes (ns ++ ms) = sizes ns + sizes ms := by
  induction ns with
  | nil => simp [sizes]
  | cons n ns ih => rw [List.cons_append, sizes, sizes, ih, Nat.add_assoc]

theorem sizes_map {f : Node → Node} (hf : ∀ n, (f n).size = n.size)
    (ns : List Node) : sizes (ns.map f) = sizes ns := by
  induction ns with
  | nil => rfl
  | cons n ns ih => rw [List.map_cons, sizes, sizes, hf, ih]

mutual

theorem size_modifyDeepest {f : Node → Node} (hf : ∀ n, (f n).size = n.size)
    (n : Node) : (modifyDeepest f n).size = n.size := by
  match n with
  | ⟨tag, []⟩ =>
      rw [modifyDeepest]
      exact hf ⟨tag, []⟩
  | ⟨tag, c :: cs⟩ =>
      rw [modifyDeepest, size, size, sizes_modifyLast hf (c :: cs)]

theorem sizes_modifyLast {f : Node → Node} (hf : ∀ n, (f n).size = n.size)
    (ns : List Node) : sizes (modifyLast f ns) = sizes ns := by
  match ns with
  | [] => rfl
  | [c] => simp only [modifyLast, sizes, size_modifyDeepest hf c]
  | c :: d :: ds => rw [modifyLast, sizes, sizes, sizes_modifyLast hf (d :: ds)]

end

end Node

namespace Unrolling

@[simp]
theorem sizes_fillDeepest (text : String) (nodes : List Node) :
    Node.sizes (fillDeepest text nodes) = Node.sizes nodes := by
  apply Node.sizes_modifyLast
  rintro ⟨tag, children⟩
  simp only [Node.size]

@[simp]
theorem sizes_map_inCopy (copy : Option Repeat) (nodes : List Node) :
    Node.sizes (nodes.map (inCopy copy)) = Node.sizes nodes := by
  apply Node.sizes_map
  rintro ⟨tag, children⟩
  simp only [inCopy, Node.size]

@[simp]
theorem sizes_placeText (s : Settings) (text : String) (nodes : List Node) :
    Node.sizes (placeText s text nodes) = Node.sizes nodes := by
  apply Node.sizes_modifyLast
  rintro ⟨tag, children⟩
  simp only [Node.size]

/-- What a run may do to the progress: it makes at most `excess` iterations that
the budget did not cover, and none of them if some of the budget is left. -/
structure Spends (excess : Nat) (p q : Progress) : Prop where
  iterations_le : p.iterations ≤ q.iterations
  total_le : q.iterations + q.budget ≤ p.iterations + p.budget + excess
  total_eq : 0 < q.budget → q.iterations + q.budget = p.iterations + p.budget

namespace Spends

variable {p q r : Progress} {m n : Nat}

/-- A step that neither iterates nor touches the budget spends nothing. -/
theorem of_eq (hiterations : q.iterations = p.iterations)
    (hbudget : q.budget = p.budget) : Spends 0 p q :=
  ⟨by omega, by omega, by omega⟩

theorem mono (h : Spends m p q) (hmn : m ≤ n) : Spends n p q :=
  ⟨h.iterations_le, Nat.le_trans h.total_le (Nat.add_le_add_left hmn _),
    h.total_eq⟩

/-- One run after another.  If budget is left in the end, it was left in
between, since no run gives budget back. -/
theorem trans (hpq : Spends m p q) (hqr : Spends n q r) :
    Spends (m + n) p r := by
  obtain ⟨hpq₁, hpq₂, hpq₃⟩ := hpq
  obtain ⟨hqr₁, hqr₂, hqr₃⟩ := hqr
  refine ⟨by omega, by omega, ?_⟩
  intro hr
  have hq := hqr₃ hr
  have hleft : 0 < q.budget := by omega
  have hp := hpq₃ hleft
  omega

end Spends

/-- A run that spends within `excess`, and yields at most `width` nodes for each
iteration, or `width` nodes if there is none. -/
structure Bounded (excess width : Nat) (run : Progress → List Node × Progress) :
    Prop where
  spends : ∀ p, Spends excess p (run p).2
  sizes_le : ∀ p, Node.sizes (run p).1 ≤
    width * max 1 ((run p).2.iterations - p.iterations)

theorem bounded_append {first second run : Progress → List Node × Progress}
    {m n width width' : Nat} (hfirst : Bounded m width first)
    (hsecond : Bounded n width' second)
    (hrun : ∀ p, run p =
      ((first p).1 ++ (second (first p).2).1, (second (first p).2).2)) :
    Bounded (m + n) (width + width') run := by
  constructor
  · intro p
    rw [hrun]
    exact (hfirst.spends p).trans (hsecond.spends (first p).2)
  · intro p
    have hsize := hfirst.sizes_le p
    have hsize' := hsecond.sizes_le (first p).2
    have hmono := (hfirst.spends p).iterations_le
    have hmono' := (hsecond.spends (first p).2).iterations_le
    have hwiden := Nat.mul_le_mul_left width
      (show max 1 ((first p).2.iterations - p.iterations) ≤
        max 1 ((second (first p).2).2.iterations - p.iterations) by omega)
    have hwiden' := Nat.mul_le_mul_left width'
      (show max 1 ((second (first p).2).2.iterations - (first p).2.iterations) ≤
        max 1 ((second (first p).2).2.iterations - p.iterations) by omega)
    rw [hrun, Node.sizes_append, Nat.add_mul]
    exact Nat.add_le_add (Nat.le_trans hsize hwiden)
      (Nat.le_trans hsize' hwiden')

variable (s : Settings)

/-- The tag of an element counts as one node; the nodes below it are those of
its children. -/
theorem bounded_element (chain : Chain) (copy : Option Repeat)
    (e : ElementTokens) {children : Progress → List Node × Progress}
    {excess width : Nat} (hchildren : Bounded excess width children) :
    Bounded excess (width + 1) (elementNodes s chain copy e children) := by
  constructor
  · intro p
    have hspends :=
      hchildren.spends ((p.readingOption e.name).readingOption e.value)
    have hbefore :
        Spends 0 p ((p.readingOption e.name).readingOption e.value) :=
      .of_eq (by simp) (by simp)
    have hafter : ∀ q : Progress,
        Spends 0 q (q.readingAttributes (e.attributes.getD [])) :=
      fun q => .of_eq (by simp) (by simp)
    have htotal := (hbefore.trans hspends).trans (hafter _)
    rw [Nat.zero_add, Nat.add_zero] at htotal
    simp only [elementNodes]
    split <;> exact htotal
  · intro p
    have hsize :=
      hchildren.sizes_le ((p.readingOption e.name).readingOption e.value)
    simp only [Progress.iterations_readingOption] at hsize
    simp only [elementNodes, Nat.succ_mul]
    split <;>
      simp only [Node.sizes, Node.size, Progress.iterations_readingAttributes,
        Nat.add_zero] <;>
      omega

/-- One iteration of the loop over copies: it makes the nodes of a copy, perhaps
with replacement text filled in, moves one from the budget to the count, and
goes on if any of the budget is left. -/
theorem copiesFrom_succ (chain : Chain) (implicit : Bool) (count : Nat)
    (once : Option Repeat → Chain → Progress → List Node × Progress)
    (left : Nat) (p : Progress) :
    ∃ copy nodes q, copy = ⟨count, count - (left + 1), implicit⟩ ∧
      (nodes = (once (some copy) (copy :: chain) p).1 ∨
        ∃ text, nodes =
          fillDeepest text (once (some copy) (copy :: chain) p).1) ∧
      q.budget = (once (some copy) (copy :: chain) p).2.budget - 1 ∧
      q.iterations = (once (some copy) (copy :: chain) p).2.iterations + 1 ∧
      copiesFrom s chain implicit count once (left + 1) p =
        if q.budget = 0 then (nodes, q)
        else (nodes ++ (copiesFrom s chain implicit count once left q).1,
          (copiesFrom s chain implicit count once left q).2) := by
  rw [copiesFrom]
  refine ⟨⟨count, count - (left + 1), implicit⟩, _, _, rfl, ?_, ?_, ?_, rfl⟩
  · split
    · exact .inr ⟨_, rfl⟩
    · exact .inl rfl
  · rw [Progress.budget_tick]
    split <;> rfl
  · rw [Progress.iterations_tick]
    split <;> rfl

/-- The loop overruns the budget once more than what it repeats: when the budget
is used up, it stops behind the copy it is at. -/
theorem copiesFrom_bounds (chain : Chain) (implicit : Bool) (count : Nat)
    {once : Option Repeat → Chain → Progress → List Node × Progress}
    {excess width : Nat}
    (honce : ∀ copy chain, Bounded excess width (once copy chain)) (left : Nat)
    (p : Progress) :
    Spends (excess + 1) p (copiesFrom s chain implicit count once left p).2 ∧
      Node.sizes (copiesFrom s chain implicit count once left p).1 ≤
        width * ((copiesFrom s chain implicit count once left p).2.iterations -
          p.iterations) := by
  induction left generalizing p with
  | zero =>
      exact ⟨(Spends.of_eq rfl rfl).mono (Nat.zero_le _),
        by simp [copiesFrom, Node.sizes]⟩
  | succ left ih =>
      obtain ⟨copy, nodes, q, -, hnodes, hbudget, hiterations, hrun⟩ :=
        copiesFrom_succ s chain implicit count once left p
      have hsizes : Node.sizes nodes =
          Node.sizes (once (some copy) (copy :: chain) p).1 := by
        rcases hnodes with rfl | ⟨text, rfl⟩
        · rfl
        · exact sizes_fillDeepest text _
      obtain ⟨hmono, htotal, hexact⟩ :=
        (honce (some copy) (copy :: chain)).spends p
      have hwidth := (honce (some copy) (copy :: chain)).sizes_le p
      have hround := Nat.mul_le_mul_left width
        (show max 1 ((once (some copy) (copy :: chain) p).2.iterations -
          p.iterations) ≤
          q.iterations - p.iterations by omega)
      rw [hrun]
      by_cases hspent : q.budget = 0
      -- This copy is the last one, and the only one that the budget may not
      -- have covered.
      · rw [if_pos hspent]
        dsimp only
        exact ⟨⟨by omega, by omega, by omega⟩, by omega⟩
      · rw [if_neg hspent]
        have hcovered : Spends 0 p q := ⟨by omega, by omega, by omega⟩
        obtain ⟨hspends, hmore⟩ := ih q
        have hrest := (hcovered.trans hspends)
        rw [Nat.zero_add] at hrest
        refine ⟨hrest, ?_⟩
        have hlater := hspends.iterations_le
        have hsplit : (copiesFrom s chain implicit count once left
            q).2.iterations - p.iterations = (q.iterations - p.iterations) +
              ((copiesFrom s chain implicit count once left q).2.iterations -
                q.iterations) := by
          omega
        rw [Node.sizes_append, hsplit, Nat.mul_add]
        omega

theorem bounded_repeated (chain : Chain) (r : Option Repeater)
    {once : Option Repeat → Chain → Progress → List Node × Progress}
    {excess width : Nat}
    (honce : ∀ copy chain, Bounded excess width (once copy chain)) :
    Bounded (excess + if r.isSome then 1 else 0) width
      (repeated s chain r once) := by
  cases r with
  | none => exact honce none chain
  | some r =>
      have hloop :=
        copiesFrom_bounds s chain r.implicit (s.copies r) honce (s.copies r)
      constructor
      · intro p
        have hflag : ∀ q : Progress,
            Spends 0 q (if r.implicit then { q with inserted := true }
              else q) := by
          intro q
          split <;> exact .of_eq rfl rfl
        exact (hloop p).1.trans (hflag _)
      · intro p
        refine Nat.le_trans (hloop p).2 (Nat.mul_le_mul_left width ?_)
        simp only [repeated]
        split <;> exact Nat.le_max_right 1 _

mutual

theorem bounded_statement (chain : Chain) (t : Statement) :
    Bounded t.repeaterCount t.elementCount (statementNodes s chain t) := by
  match t with
  | .element e children =>
      simp only [statementNodes, Statement.repeaterCount,
        Statement.elementCount]
      apply bounded_repeated s chain
      intro copy chain
      exact bounded_element s chain copy e (bounded_forest chain children)
  | .group children r =>
      simp only [statementNodes, Statement.repeaterCount,
        Statement.elementCount]
      apply bounded_repeated s chain
      intro copy chain
      have hforest := bounded_forest chain children
      refine ⟨hforest.spends, ?_⟩
      intro p
      rw [sizes_map_inCopy]
      exact hforest.sizes_le p

theorem bounded_forest (chain : Chain) (ts : List Statement) :
    Bounded (Statement.repeaterCounts ts) (Statement.elementCounts ts)
      (statementsNodes s chain ts) := by
  match ts with
  | [] =>
      simp only [statementsNodes, Statement.repeaterCounts,
        Statement.elementCounts]
      exact ⟨fun p => .of_eq rfl rfl, fun p => by simp [Node.sizes]⟩
  | t :: rest =>
      rw [Statement.repeaterCounts, Statement.elementCounts]
      apply bounded_append (bounded_statement chain t)
        (bounded_forest chain rest)
      intro p
      rw [statementsNodes]

end

/-- Placing the replacement text at the end makes no iteration. -/
theorem iterations_unroll (statements : List Statement) :
    (unroll s statements).iterations =
      (statementsNodes s [] statements
        { budget := max s.maxRepeat 1 }).2.iterations := by
  simp only [unroll]
  split <;> rfl

mutual

/-- Only repeaters iterate. -/
theorem iterations_statementNodes (chain : Chain) {t : Statement}
    (h : t.repeaterCount = 0) (p : Progress) :
    (statementNodes s chain t p).2.iterations = p.iterations := by
  match t with
  | .element e children =>
      rw [Statement.repeaterCount, Nat.add_eq_zero_iff] at h
      have hnone : e.repeater = none := by simpa using h.2
      have hchildren : ∀ q, (statementsNodes s chain children q).2.iterations =
          q.iterations :=
        iterations_statementsNodes chain h.1
      rw [statementNodes, hnone]
      simp only [repeated, elementNodes]
      split <;> simp [hchildren]
  | .group children r =>
      rw [Statement.repeaterCount, Nat.add_eq_zero_iff] at h
      have hnone : r = none := by simpa using h.2
      rw [statementNodes, hnone]
      exact iterations_statementsNodes chain h.1 p

theorem iterations_statementsNodes (chain : Chain) {ts : List Statement}
    (h : Statement.repeaterCounts ts = 0) (p : Progress) :
    (statementsNodes s chain ts p).2.iterations = p.iterations := by
  match ts with
  | [] => rw [statementsNodes]
  | t :: ts =>
      rw [Statement.repeaterCounts, Nat.add_eq_zero_iff] at h
      rw [statementsNodes]
      dsimp only
      rw [iterations_statementsNodes chain h.2,
        iterations_statementNodes chain h.1]

end

/-- The budget matters only if there is a repeater. -/
theorem iterations_unroll_le (statements : List Statement) :
    (unroll s statements).iterations ≤
      max 1 s.maxRepeat * (if 0 < Statement.repeaterCounts statements then
        1 else 0) +
        Statement.repeaterCounts statements := by
  rw [iterations_unroll]
  split
  · have hspends :=
      (bounded_forest s [] statements).spends { budget := max s.maxRepeat 1 }
    have htotal := hspends.total_le
    dsimp only at htotal
    omega
  · have hnone : Statement.repeaterCounts statements = 0 := by omega
    rw [iterations_statementsNodes s [] hnone]
    exact Nat.zero_le _

/-- Placing the replacement text at the end makes no node. -/
theorem sizes_unroll (statements : List Statement) :
    Node.sizes (unroll s statements).nodes =
      Node.sizes (statementsNodes s [] statements
        { budget := max s.maxRepeat 1 }).1 := by
  simp only [unroll]
  split
  · dsimp only
    split
    · rfl
    · rw [sizes_placeText]
  · rfl

/-- Each element makes at most one node in each iteration. -/
theorem sizes_unroll_le (statements : List Statement) :
    Node.sizes (unroll s statements).nodes ≤
      Statement.elementCounts statements * max 1
        (unroll s statements).iterations := by
  rw [sizes_unroll, iterations_unroll]
  exact (bounded_forest s [] statements).sizes_le
    { budget := max s.maxRepeat 1 }

/-- Whatever the repeaters, the replacement text and the budget: each repeater
makes at most one iteration that the budget does not cover, and each element at
most one node in each iteration. -/
theorem unroll_bounded (s : Settings) (statements : List Statement) :
    (unroll s statements).iterations ≤
        max 1 s.maxRepeat + Statement.repeaterCounts statements ∧
      Node.sizes (unroll s statements).nodes ≤
        Statement.elementCounts statements *
          (max 1 s.maxRepeat + Statement.repeaterCounts statements) := by
  have hrun := bounded_forest s [] statements
  have htotal := (hrun.spends { budget := max s.maxRepeat 1 }).total_le
  have hsizes := hrun.sizes_le { budget := max s.maxRepeat 1 }
  dsimp only at htotal hsizes
  rw [← iterations_unroll] at htotal hsizes
  rw [← sizes_unroll] at hsizes
  have hbound : (unroll s statements).iterations ≤
      max 1 s.maxRepeat + Statement.repeaterCounts statements := by omega
  refine ⟨hbound, Nat.le_trans hsizes (Nat.mul_le_mul_left _ ?_)⟩
  omega

end Unrolling

end Scaffold

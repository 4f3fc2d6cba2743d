import Scaffold.Proofs.Repeat.Unrolling
import Scaffold.Proofs.Unrolling.Landing
/-!
Unrolling with replacement text, without a budget and without notes on what has
become of the text. Whether text has landed when a copy is made can be read off
the statements in front of it, and a copy of a bare repeater gets its text
exactly if none has landed by the end of it.  Main statement:
`settled_statementsNodes`.
-/
namespace Scaffold.Unrolling

/-- Whether text has landed in front of a round of a loop: it had before the
loop, or there are rounds in front of this one, in which it lands. -/
def landedAt (landed lands : Bool) (round : Nat) : Bool :=
  landed || (decide (0 < round) && lands)

@[simp]
theorem landedAt_zero (landed lands : Bool) :
    landedAt landed lands 0 = landed := by
  rw [landedAt, decide_eq_false (Nat.lt_irrefl 0), Bool.false_and,
    Bool.or_false]

/-- Behind the first round of a loop text has landed if it lands at all. -/
theorem landedAt_later (landed lands : Bool) {round : Nat} (hround : 0 < round)
    (later : Nat) :
    landedAt (landed || lands) lands later = landedAt landed lands round := by
  rw [landedAt, landedAt, decide_eq_true hround]
  cases lands <;> simp

/-- What is written in all rounds of a repeater, or once if there is none. -/
def Settings.inRounds {α : Type} (s : Settings) (chain : Chain)
    (r : Option Repeater) (landed lands : Bool)
    (each : Option Repeat → Chain → Bool → List α) : List α :=
  match r with
  | none => each none chain landed
  | some r => (List.range (s.copies r)).flatMap fun i =>
      each (some ⟨s.copies r, i, r.implicit⟩)
        (⟨s.copies r, i, r.implicit⟩ :: chain) (landedAt landed lands i)

/-- A copy with its text, if it is one of a bare repeater and no text has
landed. -/
def settle (s : Settings) (copy : Option Repeat) (landed : Bool)
    (nodes : List Node) : List Node :=
  match copy with
  | some ⟨_, value, true⟩ =>
      if landed then nodes else fillDeepest (s.textAt (some value)) nodes
  | _ => nodes

theorem settle_of_landed (s : Settings) (copy : Option Repeat)
    (nodes : List Node) : settle s copy true nodes = nodes := by
  rw [settle.eq_def]
  split
  · rw [if_pos rfl]
  · rfl

mutual

/-- The nodes of a statement with their texts, given whether text has landed in
front of it. -/
def settledNodes (s : Settings) (chain : Chain) (landed : Bool) :
    Statement → List Node
  | .element e children =>
      s.inRounds chain e.repeater landed
        (Statement.element e children).onceLands
        fun copy chain before =>
          settle s copy (landed || (Statement.element e children).onceLands)
            (plainElement s chain copy e
              (settledForest s chain (before || e.headHasPlace) children))
  | .group children r =>
      s.inRounds chain r landed (Statement.group children r).onceLands
        fun copy chain before =>
          settle s copy (landed || (Statement.group children r).onceLands)
            ((settledForest s chain before children).map (inCopy copy))

/-- The nodes of statements with their texts, given whether text has landed in
front of them. -/
def settledForest (s : Settings) (chain : Chain) (landed : Bool) :
    List Statement → List Node
  | [] => []
  | t :: ts =>
      settledNodes s chain landed t ++ settledForest s chain
        (landed || t.lands) ts

end

/-- The nodes of one copy of a statement, before a text is put into it. -/
def settledOnce (s : Settings) (t : Statement) (copy : Option Repeat)
    (chain : Chain) (landed : Bool) : List Node :=
  match t with
  | .element e children =>
      plainElement s chain copy e
        (settledForest s chain (landed || e.headHasPlace) children)
  | .group children _ =>
      (settledForest s chain landed children).map (inCopy copy)

theorem settledNodes_eq (s : Settings) (chain : Chain) (landed : Bool)
    (t : Statement) :
    settledNodes s chain landed t =
      s.inRounds chain t.repeater landed t.onceLands
      fun copy chain before => settle s copy (landed || t.onceLands)
        (settledOnce s t copy chain before) := by
  cases t <;> rw [settledNodes] <;> rfl

theorem elementNodes_fst (s : Settings) (chain : Chain) (copy : Option Repeat)
    (e : ElementTokens) (children : Progress → List Node × Progress)
    (p : Progress) :
    (elementNodes s chain copy e children p).1 = plainElement s chain copy e
      (children ((p.readingOption e.name).readingOption e.value)).1 := by
  rw [elementNodes, plainElement]
  dsimp only
  split <;> rfl

/-- A round is settled with what is noted behind it. -/
theorem roundNodes_eq (s : Settings) (copy : Repeat)
    (round : List Node × Progress) :
    roundNodes s copy round = settle s (some copy) round.2.inserted
      round.1 := by
  obtain ⟨count, value, implicit⟩ := copy
  cases implicit with
  | false => rfl
  | true =>
      rw [roundNodes, fills, settle]
      cases round.2.inserted with
      | true => rfl
      | false =>
          -- Filling no nodes makes no difference.
          cases hnodes : round.1 <;> rfl

/-- With a budget of at least `inside`, what a run yields depends on whether
text has landed. -/
def Settles (inside : Nat) (run : Progress → List Node × Progress)
    (nodes : Bool → List Node) : Prop :=
  ∀ p, inside ≤ p.budget → (run p).1 = nodes p.inserted

section Runs

variable {s : Settings} {chain : Chain} {inside : Nat} {lands : Bool}
  {once : Option Repeat → Chain → Progress → List Node × Progress}
  {nodes : Option Repeat → Chain → Bool → List Node}

theorem settled_copiesFrom (chain : Chain) (implicit : Bool) (count : Nat)
    (htakes : ∀ copy chain, Takes inside (once copy chain))
    (hnotes : ∀ copy chain, Notes lands (once copy chain))
    (honce : ∀ copy chain, Settles inside (once copy chain) (nodes copy chain))
    {left : Nat} (hleft : left ≤ count) {p : Progress}
    (hp : left * (inside + 1) ≤ p.budget) :
    (copiesFrom s chain implicit count once left p).1 =
      (List.range' (count - left) left).flatMap fun i =>
        settle s (some ⟨count, i, implicit⟩) (p.inserted || lands)
          (nodes (some ⟨count, i, implicit⟩) (⟨count, i, implicit⟩ :: chain)
            (landedAt p.inserted lands (i - (count - left)))) := by
  refine copiesFrom_induction (motive := fun left p run =>
    left ≤ count → run.1 =
    (List.range' (count - left) left).flatMap fun i =>
      settle s (some ⟨count, i, implicit⟩) (p.inserted || lands)
        (nodes (some ⟨count, i, implicit⟩) (⟨count, i, implicit⟩ :: chain)
          (landedAt p.inserted lands (i - (count - left)))))
    htakes (fun _ _ => rfl) ?_ hp hleft
  intro left p rest hcovered hrest hleft
  have hnext : count - (left + 1) + 1 = count - left := by omega
  have hinserted : (roundAt chain implicit count once
      (count - (left + 1)) p).2.inserted = (p.inserted || lands) := hnotes _ _ p
  have hround : (roundAt chain implicit count once (count - (left + 1)) p).1 =
      nodes (some ⟨count, count - (left + 1), implicit⟩)
        (⟨count, count - (left + 1), implicit⟩ :: chain) p.inserted :=
          honce _ _ p (by omega)
  rw [inserted_behindRound, hinserted, Bool.or_assoc, Bool.or_self] at hrest
  dsimp only
  rw [hrest (by omega), roundNodes_eq, hinserted, hround, List.range'_succ,
    List.flatMap_cons, hnext]
  congr 1
  · rw [Nat.sub_self, landedAt_zero]
  · apply List.flatMap_congr
    intro i hi
    rw [List.mem_range'_1] at hi
    rw [landedAt_later _ _ (show 0 < i - (count - (left + 1)) by omega)]

theorem settled_repeated (htakes : ∀ copy chain, Takes inside (once copy chain))
    (hnotes : ∀ copy chain, Notes lands (once copy chain))
    (honce : ∀ copy chain, Settles inside (once copy chain) (nodes copy chain))
    (r : Option Repeater) :
    Settles (s.repeatedRounds r inside) (repeated s chain r once) fun landed =>
      s.inRounds chain r landed lands fun copy chain before =>
        settle s copy (landed || lands) (nodes copy chain before) := by
  intro p hp
  cases r with
  | none => exact honce none chain p hp
  | some r =>
      have hloop := settled_copiesFrom (s := s) chain r.implicit (s.copies r)
        htakes hnotes honce (Nat.le_refl _) hp
      simp only [Nat.sub_self, Nat.sub_zero, ← List.range_eq_range'] at hloop
      exact hloop

variable (s)

mutual

theorem settled_statementOnce (t : Statement) (copy : Option Repeat)
    (chain : Chain) :
    Settles (s.roundsOf t.children) (statementOnce s t copy chain)
      (settledOnce s t copy chain) := by
  match t with
  | .element e children =>
      intro p hp
      change s.roundsOf children ≤ p.budget at hp
      have hbelow := settled_statementsNodes children chain
        ((p.readingOption e.name).readingOption e.value) (by simpa using hp)
      rw [Progress.inserted_readingOption, Progress.inserted_readingOption,
        Bool.or_assoc] at hbelow
      rw [statementOnce, elementNodes_fst, hbelow]
      rfl
  | .group children r =>
      intro p hp
      exact congrArg (List.map (inCopy copy))
        (settled_statementsNodes children chain p hp)

theorem settled_statementNodes (t : Statement) (chain : Chain) :
    Settles (s.rounds t) (statementNodes s chain t)
      fun landed => settledNodes s chain landed t := by
  have htakes : ∀ copy chain,
      Takes (s.roundsOf t.children) (statementOnce s t copy chain) :=
    takes_statementOnce s t
  have hnotes : ∀ copy chain,
      Notes t.onceLands (statementOnce s t copy chain) :=
    notes_statementOnce s t
  have honce : ∀ copy chain,
      Settles (s.roundsOf t.children) (statementOnce s t copy chain)
      (settledOnce s t copy chain) := fun copy chain =>
        settled_statementOnce t copy chain
  intro p hp
  rw [s.rounds_eq] at hp
  dsimp only
  rw [statementNodes_eq, settledNodes_eq]
  exact settled_repeated htakes hnotes honce t.repeater p hp

/-- A run within its budget yields nodes that are settled according to whether
text has landed in front of it. -/
theorem settled_statementsNodes (ts : List Statement) (chain : Chain) :
    Settles (s.roundsOf ts) (statementsNodes s chain ts) fun landed =>
      settledForest s chain landed ts := by
  match ts with
  | [] =>
      intro p _
      rw [statementsNodes]
      rfl
  | t :: ts =>
      intro p hp
      rw [Settings.roundsOf] at hp
      obtain ⟨hbudget, -⟩ := takes_statementNodes s t chain p (by omega)
      have hfirst := settled_statementNodes t chain p (by omega)
      have hrest := settled_statementsNodes ts chain
        (statementNodes s chain t p).2 (by omega)
      rw [notes_statementNodes] at hrest
      rw [statementsNodes_cons]
      dsimp only
      rw [hfirst, hrest, settledForest]

end

end Runs

/-! ### Conversions -/

/-- A statement with a bare repeater at the moment when it is converted: in
which copies, and whether text has landed so far. -/
structure Conversion where
  chain : Chain
  statement : Statement
  landed : Bool
  isBare : statement.isBare = true

mutual

/-- All conversions of statements with a bare repeater in a statement, in the
order in which they begin. -/
def conversions (s : Settings) (chain : Chain) (landed : Bool) :
    Statement → List Conversion
  | .element e children =>
      (if h : (Statement.element e children).isBare = true then
        [⟨chain, .element e children, landed, h⟩] else []) ++
        s.inRounds chain e.repeater landed
          (Statement.element e children).onceLands
          fun _ chain before =>
            conversionsOf s chain (before || e.headHasPlace) children
  | .group children r =>
      (if h : (Statement.group children r).isBare = true then
        [⟨chain, .group children r, landed, h⟩] else []) ++
        s.inRounds chain r landed (Statement.group children r).onceLands
          fun _ chain before => conversionsOf s chain before children

def conversionsOf (s : Settings) (chain : Chain) (landed : Bool) :
    List Statement → List Conversion
  | [] => []
  | t :: ts =>
      conversions s chain landed t ++ conversionsOf s chain
        (landed || t.lands) ts

end

/-- The conversions within one copy of a statement. -/
def conversionsOnce (s : Settings) (t : Statement) (chain : Chain)
    (landed : Bool) : List Conversion :=
  match t with
  | .element e children =>
      conversionsOf s chain (landed || e.headHasPlace) children
  | .group children _ => conversionsOf s chain landed children

theorem conversions_eq (s : Settings) (chain : Chain) (landed : Bool)
    (t : Statement) :
    conversions s chain landed t =
      (if h : t.isBare = true then [⟨chain, t, landed, h⟩] else []) ++
      s.inRounds chain t.repeater landed t.onceLands fun _ chain before =>
        conversionsOnce s t chain before := by
  cases t <;> rw [conversions] <;> rfl

/-- Something is converted in one of the rounds. -/
theorem mem_inRounds {α : Type} {s : Settings} {chain : Chain}
    {r : Option Repeater} {landed lands : Bool}
    {each : Option Repeat → Chain → Bool → List α} {a : α}
    (ha : a ∈ s.inRounds chain r landed lands each) :
    ∃ copy chain' before, a ∈ each copy chain' before := by
  cases r with
  | none => exact ⟨none, chain, landed, ha⟩
  | some r =>
      rw [Settings.inRounds, List.mem_flatMap] at ha
      obtain ⟨i, -, hin⟩ := ha
      exact ⟨_, _, _, hin⟩

section Members

variable {s : Settings}

mutual

theorem onceLands_of_mem_conversionsOnce {t : Statement} {chain : Chain}
    {landed : Bool} {c : Conversion}
    (hc : c ∈ conversionsOnce s t chain landed) : t.onceLands = true := by
  match t with
  | .element e children =>
      have hbelow : Statement.anyLands children = true :=
        anyLands_of_mem_conversionsOf hc
      simp [Statement.onceLands, Statement.children, hbelow]
  | .group children r =>
      have hbelow : Statement.anyLands children = true :=
        anyLands_of_mem_conversionsOf hc
      simp [Statement.onceLands, Statement.children, hbelow]

theorem lands_of_mem_conversions {t : Statement} {chain : Chain} {landed : Bool}
    {c : Conversion} (hc : c ∈ conversions s chain landed t) :
    t.lands = true := by
  rw [conversions_eq, List.mem_append] at hc
  rw [t.lands_eq, Bool.or_eq_true]
  rcases hc with hself | hinside
  · left
    split at hself
    · next hbare => exact hbare
    · cases hself
  · right
    obtain ⟨-, chain', before, hin⟩ := mem_inRounds hinside
    exact onceLands_of_mem_conversionsOnce hin

/-- Where a bare repeater is converted, text lands. -/
theorem anyLands_of_mem_conversionsOf {ts : List Statement} {chain : Chain}
    {landed : Bool} {c : Conversion}
    (hc : c ∈ conversionsOf s chain landed ts) :
    Statement.anyLands ts = true := by
  match ts with
  | [] => cases hc
  | t :: ts =>
      rw [conversionsOf, List.mem_append] at hc
      rw [Statement.anyLands, Bool.or_eq_true]
      rcases hc with hfirst | hrest
      · exact .inl (lands_of_mem_conversions hfirst)
      · exact .inr (anyLands_of_mem_conversionsOf hrest)

end

end Members

end Scaffold.Unrolling

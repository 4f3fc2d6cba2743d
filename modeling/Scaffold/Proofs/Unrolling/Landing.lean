import Scaffold.Proofs.Unrolling.Covered
/-!
Where replacement text lands.  A run of unrolling notes two things about the
text: that it has found a place, and that it was asked for.  What a statement
does to the first of these notes can be read off the statement, whatever the
budget: it is made by a place for the text and by a bare repeater, and nothing
takes it back.
-/
namespace Scaffold

def Token.isPlace (t : Token) : Bool := t.kind == .textPlaceholder

def AttributeTokens.tokens (a : AttributeTokens) : List Token :=
  a.name.getD [] ++ a.value.getD []

def AttributeTokens.hasPlace (a : AttributeTokens) : Bool :=
  (a.name.getD []).any Token.isPlace || (a.value.getD []).any Token.isPlace

namespace ElementTokens

/-- The tokens that an element is written with, besides those of its
repeater. -/
def tokens (e : ElementTokens) : List Token :=
  e.name.getD [] ++ e.value.getD [] ++ (e.attributes.getD []).flatMap
    AttributeTokens.tokens

/-- A place in the name or the value, which are read in front of the
children. -/
def headHasPlace (e : ElementTokens) : Bool :=
  (e.name.getD []).any Token.isPlace || (e.value.getD []).any Token.isPlace

/-- A place in an attribute, which are read behind the children. -/
def attributesHavePlace (e : ElementTokens) : Bool :=
  (e.attributes.getD []).any AttributeTokens.hasPlace

end ElementTokens

namespace Statement

/-- The repeater makes one copy for each text. -/
def isBare (t : Statement) : Bool := t.repeater.any (·.implicit)

theorem isBare_iff {t : Statement} :
    t.isBare = true ↔ ∃ r, t.repeater = some r ∧ r.implicit = true := by
  rw [isBare, Option.any_eq_true]

/-- A place for text in front of the children. -/
def headLands : Statement → Bool
  | element e _ => e.headHasPlace
  | group _ _ => false

/-- A place for text behind the children. -/
def tailLands : Statement → Bool
  | element e _ => e.attributesHavePlace
  | group _ _ => false

mutual

/-- Text lands in a statement: it has a place for it, or a bare repeater. -/
def lands : Statement → Bool
  | element e children =>
      e.repeater.any (·.implicit) ||
        (e.headHasPlace || anyLands children || e.attributesHavePlace)
  | group children r => r.any (·.implicit) || anyLands children

def anyLands : List Statement → Bool
  | [] => false
  | t :: ts => lands t || anyLands ts

end

def onceLands (t : Statement) : Bool :=
  t.headLands || anyLands t.children || t.tailLands

theorem lands_eq (t : Statement) : t.lands = (t.isBare || t.onceLands) := by
  cases t with
  | element e children => rw [lands, isBare, onceLands]; rfl
  | group children r =>
      rw [lands, isBare, onceLands, headLands, tailLands, Bool.false_or,
        Bool.or_false]
      rfl

end Statement

namespace Unrolling

namespace Progress

variable (p : Progress)

theorem inserted_reading (tokens : List Token) :
    (p.reading tokens).inserted = (p.inserted || tokens.any Token.isPlace) := by
  rw [reading]
  split
  · next hplace => exact (Bool.or_eq_true_iff.2 (.inr hplace)).symm
  · next hnone =>
      rw [Bool.not_eq_true] at hnone
      exact (Bool.or_false _ ▸ congrArg (p.inserted || ·) hnone).symm

theorem inserted_readingOption (tokens : Option (List Token)) :
    (p.readingOption tokens).inserted =
      (p.inserted || (tokens.getD []).any Token.isPlace) :=
  p.inserted_reading _

theorem inserted_readingAttributes (attributes : List AttributeTokens) :
    (p.readingAttributes attributes).inserted =
      (p.inserted || attributes.any AttributeTokens.hasPlace) := by
  rw [readingAttributes]
  induction attributes generalizing p with
  | nil => simp
  | cons a rest ih =>
      rw [List.foldl_cons, ih, inserted_readingOption, inserted_readingOption,
        List.any_cons, AttributeTokens.hasPlace]
      simp only [Bool.or_assoc]

/-- Nothing takes back that the text was asked for. -/
theorem consumed_reading {p : Progress} (h : p.consumed = true)
    (tokens : List Token) : (p.reading tokens).consumed = true := by
  rw [reading]
  split
  · rfl
  · exact h

theorem consumed_readingAttributes {p : Progress} (h : p.consumed = true)
    (attributes : List AttributeTokens) :
    (p.readingAttributes attributes).consumed = true := by
  rw [readingAttributes]
  induction attributes generalizing p with
  | nil => exact h
  | cons a rest ih => exact ih (consumed_reading (consumed_reading h _) _)

end Progress

/-! ### The text has landed -/

/-- Behind a run, text has landed if it had before, or if it lands in what was
run. -/
def Notes (lands : Bool) (run : Progress → List Node × Progress) : Prop :=
  ∀ p, (run p).2.inserted = (p.inserted || lands)

theorem notes_copiesFrom {s : Settings} {chain : Chain} {implicit : Bool}
    {count : Nat}
    {once : Option Repeat → Chain → Progress → List Node × Progress} {b : Bool}
    (honce : ∀ copy chain, Notes b (once copy chain)) (left : Nat) :
    Notes b (copiesFrom s chain implicit count once (left + 1)) := by
  induction left with
  | zero =>
      intro p
      have hround := honce (some ⟨count, count - 1, implicit⟩)
        (⟨count, count - 1, implicit⟩ :: chain) p
      rw [copiesFrom_cons]
      simp only [Nat.zero_add]
      split <;> simpa [copiesFrom, roundAt] using hround
  | succ left ih =>
      intro p
      have hround := honce (some ⟨count, count - (left + 2), implicit⟩)
        (⟨count, count - (left + 2), implicit⟩ :: chain) p
      rw [copiesFrom_cons]
      dsimp only
      split
      · simpa [roundAt] using hround
      · rw [ih, inserted_behindRound, roundAt, hround, Bool.or_assoc,
          Bool.or_self]

theorem Settings.copies_pos (s : Settings) {r : Repeater}
    (explicit : r.implicit = false) : 0 < s.copies r := by
  rw [copies, explicit]
  split <;> exact Nat.lt_of_lt_of_le Nat.zero_lt_one (Nat.le_max_right _ _)

theorem notes_repeated {s : Settings} {chain : Chain} {r : Option Repeater}
    {once : Option Repeat → Chain → Progress → List Node × Progress} {b : Bool}
    (honce : ∀ copy chain, Notes b (once copy chain)) :
    Notes (r.any (·.implicit) || b) (repeated s chain r once) := by
  cases r with
  | none => exact honce none chain
  | some r =>
      intro p
      cases himplicit : r.implicit with
      | true => simp [repeated, himplicit]
      | false =>
          obtain ⟨left, hleft⟩ :=
            Nat.exists_eq_succ_of_ne_zero
              (Nat.ne_of_gt (s.copies_pos himplicit))
          have hloop :
              Notes b (copiesFrom s chain false (s.copies r) once (left + 1)) :=
            notes_copiesFrom honce left
          rw [← Nat.succ_eq_add_one, ← hleft] at hloop
          simpa [repeated, himplicit] using hloop p

section

variable (s : Settings)

mutual

theorem notes_statementOnce (t : Statement) (copy : Option Repeat)
    (chain : Chain) : Notes t.onceLands (statementOnce s t copy chain) := by
  match t with
  | .element e children =>
      intro p
      have hbelow := notes_statementsNodes children chain
        ((p.readingOption e.name).readingOption e.value)
      rw [Progress.inserted_readingOption, Progress.inserted_readingOption]
        at hbelow
      simp only [statementOnce, elementNodes]
      split <;>
        simp only [Progress.inserted_readingAttributes, hbelow,
          Statement.onceLands, Statement.headLands, Statement.tailLands,
          ElementTokens.headHasPlace, ElementTokens.attributesHavePlace,
          Statement.children, Bool.or_assoc]
  | .group children r =>
      intro p
      have hbelow := notes_statementsNodes children chain p
      simp only [Statement.onceLands, Statement.headLands, Statement.tailLands,
        Bool.false_or, Bool.or_false]
      exact hbelow

theorem notes_statementNodes (t : Statement) (chain : Chain) :
    Notes t.lands (statementNodes s chain t) := by
  have honce : ∀ copy chain, Notes t.onceLands (statementOnce s t copy chain) :=
    fun copy chain => notes_statementOnce t copy chain
  intro p
  rw [statementNodes_eq, t.lands_eq]
  exact notes_repeated honce p

theorem notes_statementsNodes (ts : List Statement) (chain : Chain) :
    Notes (Statement.anyLands ts) (statementsNodes s chain ts) := by
  match ts with
  | [] =>
      intro p
      rw [statementsNodes, Statement.anyLands, Bool.or_false]
  | t :: ts =>
      intro p
      rw [statementsNodes_cons, Statement.anyLands]
      dsimp only
      rw [notes_statementsNodes ts chain, notes_statementNodes t chain,
        Bool.or_assoc]

end

end

/-! ### The text was asked for -/

/-- If the text was asked for before a run, it still was behind it. -/
def KeepsConsumed (run : Progress → List Node × Progress) : Prop :=
  ∀ p, p.consumed = true → (run p).2.consumed = true

theorem keepsConsumed_copiesFrom {s : Settings} {chain : Chain}
    {implicit : Bool} {count : Nat}
    {once : Option Repeat → Chain → Progress → List Node × Progress}
    (honce : ∀ copy chain, KeepsConsumed (once copy chain)) (left : Nat) :
    KeepsConsumed (copiesFrom s chain implicit count once left) := by
  induction left with
  | zero =>
      intro p hp
      rw [copiesFrom]
      exact hp
  | succ left ih =>
      intro p hp
      have hround : (behindRound implicit
          (roundAt chain implicit count once (count - (left + 1)) p)).consumed =
            true := by
        rw [consumed_behindRound, Bool.or_eq_true]
        exact .inl (honce _ _ p hp)
      rw [copiesFrom_cons]
      dsimp only
      split
      · exact hround
      · exact ih _ hround

theorem keepsConsumed_repeated {s : Settings} {chain : Chain}
    {r : Option Repeater}
    {once : Option Repeat → Chain → Progress → List Node × Progress}
    (honce : ∀ copy chain, KeepsConsumed (once copy chain)) :
    KeepsConsumed (repeated s chain r once) := by
  cases r with
  | none => exact honce none chain
  | some r =>
      intro p hp
      have hloop : KeepsConsumed
          (copiesFrom s chain r.implicit (s.copies r) once (s.copies r)) :=
        keepsConsumed_copiesFrom honce (s.copies r)
      simp only [repeated]
      split <;> exact hloop p hp

section

variable (s : Settings)

mutual

theorem keepsConsumed_statementOnce (t : Statement) (copy : Option Repeat)
    (chain : Chain) : KeepsConsumed (statementOnce s t copy chain) := by
  match t with
  | .element e children =>
      intro p hp
      have hbelow := keepsConsumed_statementsNodes children chain _
        (Progress.consumed_reading
          (Progress.consumed_reading hp (e.name.getD [])) (e.value.getD []))
      have htag :=
        Progress.consumed_readingAttributes hbelow (e.attributes.getD [])
      simp only [statementOnce, elementNodes]
      split <;> exact htag
  | .group children r => exact keepsConsumed_statementsNodes children chain

theorem keepsConsumed_statementNodes (t : Statement) (chain : Chain) :
    KeepsConsumed (statementNodes s chain t) := by
  have honce : ∀ copy chain, KeepsConsumed (statementOnce s t copy chain) :=
    fun copy chain => keepsConsumed_statementOnce t copy chain
  intro p hp
  rw [statementNodes_eq]
  exact keepsConsumed_repeated honce p hp

theorem keepsConsumed_statementsNodes (ts : List Statement) (chain : Chain) :
    KeepsConsumed (statementsNodes s chain ts) := by
  match ts with
  | [] =>
      intro p hp
      rw [statementsNodes]
      exact hp
  | t :: ts =>
      intro p hp
      rw [statementsNodes_cons]
      exact keepsConsumed_statementsNodes ts chain
        _ (keepsConsumed_statementNodes t chain p hp)

end

end

end Unrolling

end Scaffold

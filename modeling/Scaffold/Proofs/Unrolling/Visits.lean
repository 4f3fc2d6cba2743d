import Mathlib.Data.List.Forall2
import Scaffold.Proofs.Node.Preorder
import Scaffold.Proofs.Repeat.Unrolling
import Scaffold.Proofs.Unrolling.Covered
/-!
What unrolling writes, element by element.  Each element is visited once in
every combination of the copies around it, and the tags of the unrolled tree, in
document order, are those of the visits: texts that hold no children and groups
change where a node stands, but not when it comes. Replacement text may be added
to a tag, and takes nothing away.  Main statement: `written_unroll`.
-/
namespace Scaffold

/-- What becomes of a tag if replacement text lands in it, and if a link gets
its target from it. -/
inductive Tag.Receives : Tag → Tag → Prop
  | nothing (t : Tag) : Receives t t
  | text {t u : Tag} (s : String) (h : Receives t u) :
    Receives t (u.appendText s)
  | target {t u : Tag} (s : String) (h : Receives t u) :
    Receives t (Unrolling.withTarget u s)

/-- A copy says nothing about where text lands. -/
theorem Tag.Receives.setCopy {t u : Tag} (h : t.Receives u)
    (copy : Option Repeat) :
    Tag.Receives { t with copy := copy } { u with copy := copy } := by
  induction h with
  | nothing => exact .nothing _
  | text s _ ih => exact .text s ih
  | @target u s _ ih =>
      have hcopy : ({ Unrolling.withTarget u s with copy := copy } : Tag) =
          Unrolling.withTarget { u with copy := copy } s := by
        rw [Unrolling.withTarget, Unrolling.withTarget]
        cases Address.target? s with
        | none => rfl
        | some target =>
            have hfind : ({ u with copy := copy } : Tag).find? "href" =
                u.find? "href" := rfl
            rw [hfind]
            cases u.find? "href" with
            | none => rfl
            | some a =>
                dsimp only
                split <;> rfl
      rw [hcopy]
      exact .target s ih

namespace Node

mutual

theorem forall₂_preorder_modifyDeepest (f : Tag → Tag) (n : Node) :
    List.Forall₂ (fun t u => u = t ∨ u = f t) n.preorder
      (modifyDeepest (fun n => { n with tag := f n.tag }) n).preorder := by
  match n with
  | ⟨tag, []⟩ =>
      rw [modifyDeepest, preorder_mk, preorder_mk, preorders_nil]
      exact .cons (.inr rfl) .nil
  | ⟨tag, c :: cs⟩ =>
      rw [modifyDeepest, preorder_mk, preorder_mk]
      exact .cons (.inl rfl) (forall₂_preorders_modifyLast f (c :: cs))

/-- A change of the deepest last node keeps the tags apart from perhaps one. -/
theorem forall₂_preorders_modifyLast (f : Tag → Tag) (ns : List Node) :
    List.Forall₂ (fun t u => u = t ∨ u = f t) (preorders ns)
      (preorders (modifyLast (fun n => { n with tag := f n.tag }) ns)) := by
  match ns with
  | [] => exact .nil
  | [c] =>
      rw [modifyLast, preorders_cons, preorders_cons, preorders_nil,
        List.append_nil, List.append_nil]
      exact forall₂_preorder_modifyDeepest f c
  | c :: d :: ds =>
      rw [modifyLast, preorders_cons, preorders_cons]
      exact List.rel_append
        (List.forall₂_same.2 fun t _ => .inl rfl)
          (forall₂_preorders_modifyLast f (d :: ds))

end

theorem forall₂_preorders_map {f : Tag → Tag} (ns : List Node) :
    List.Forall₂ (fun t u => u = t ∨ u = f t) (preorders ns)
      (preorders (ns.map fun n => { n with tag := f n.tag })) := by
  induction ns with
  | nil => exact .nil
  | cons n ns ih =>
      rw [List.map_cons, preorders_cons, preorders_cons]
      refine List.rel_append ?_ ih
      obtain ⟨tag, children⟩ := n
      rw [preorder_mk, preorder_mk]
      exact .cons (.inr rfl) (List.forall₂_same.2 fun t _ => .inl rfl)

end Node

namespace Unrolling

/-- An element in the copies that it is written in. -/
structure Visit where
  chain : Chain
  element : ElementTokens

/-- What is written in each copy of a repeater, or once if there is none. -/
def Settings.inCopies {α : Type} (s : Settings) (chain : Chain)
    (r : Option Repeater) (each : Chain → List α) : List α :=
  match r with
  | none => each chain
  | some r => (List.range (s.copies r)).flatMap fun i =>
      each (⟨s.copies r, i, r.implicit⟩ :: chain)

mutual

/-- The visits to the elements of a statement, in document order. -/
def visits (s : Settings) (chain : Chain) : Statement → List Visit
  | .element e children =>
      s.inCopies chain e.repeater fun chain =>
        ⟨chain, e⟩ :: visitsOf s chain children
  | .group children r =>
      s.inCopies chain r fun chain => visitsOf s chain children

def visitsOf (s : Settings) (chain : Chain) : List Statement → List Visit
  | [] => []
  | t :: ts => visits s chain t ++ visitsOf s chain ts

end

def visitsOnce (s : Settings) (chain : Chain) : Statement → List Visit
  | .element e children => ⟨chain, e⟩ :: visitsOf s chain children
  | .group children _ => visitsOf s chain children

theorem visits_eq (s : Settings) (chain : Chain) (t : Statement) :
    visits s chain t = s.inCopies chain t.repeater fun chain =>
      visitsOnce s chain t := by
  cases t <;> rw [visits] <;> rfl

/-- A tag is that of a visit, perhaps with replacement text. -/
def Visit.Makes (s : Settings) (v : Visit) (tag : Tag) : Prop :=
  ∃ copy, (elementTag s v.chain copy v.element).Receives tag

namespace Visit.Makes

variable {s : Settings} {v : Visit} {tag : Tag}

theorem appendText (h : v.Makes s tag) (text : String) :
    v.Makes s (tag.appendText text) := by
  obtain ⟨copy, hreceives⟩ := h
  exact ⟨copy, .text text hreceives⟩

theorem withTarget (h : v.Makes s tag) (text : String) :
    v.Makes s (withTarget tag text) := by
  obtain ⟨copy, hreceives⟩ := h
  exact ⟨copy, .target text hreceives⟩

theorem setCopy (h : v.Makes s tag) (copy : Option Repeat) :
    v.Makes s { tag with copy := copy } := by
  obtain ⟨_, hreceives⟩ := h
  exact ⟨copy, hreceives.setCopy copy⟩

end Visit.Makes

theorem forall₂_makes_change {s : Settings} {f : Tag → Tag}
    (hf : ∀ (v : Visit) (t : Tag), v.Makes s t → v.Makes s (f t))
    {vs : List Visit} {tags : List Tag}
    (h : List.Forall₂ (Visit.Makes s) vs tags) {tags' : List Tag}
    (hchange : List.Forall₂ (fun t u => u = t ∨ u = f t) tags tags') :
    List.Forall₂ (Visit.Makes s) vs tags' := by
  induction h generalizing tags' with
  | nil =>
      cases hchange
      exact .nil
  | @cons v t vs tags hfirst _ ih =>
      obtain ⟨u, us, hu, hus, rfl⟩ := List.forall₂_cons_left_iff.1 hchange
      refine .cons ?_ (ih hus)
      rcases hu with rfl | rfl
      · exact hfirst
      · exact hf v t hfirst

/-- The tags of nodes are those of visits, one for one. -/
def Written (s : Settings) (vs : List Visit) (nodes : List Node) : Prop :=
  List.Forall₂ (Visit.Makes s) vs (Node.preorders nodes)

namespace Written

variable {s : Settings} {vs ws : List Visit} {nodes more : List Node}

theorem append (h : Written s vs nodes) (h' : Written s ws more) :
    Written s (vs ++ ws) (nodes ++ more) := by
  rw [Written, Node.preorders_append]
  exact List.rel_append h h'

/-- Tags may change in whatever a visit leaves open. -/
theorem change (h : Written s vs nodes) {f : Tag → Tag}
    (hf : ∀ (v : Visit) (t : Tag), v.Makes s t → v.Makes s (f t))
    (hchange : List.Forall₂ (fun t u => u = t ∨ u = f t) (Node.preorders nodes)
      (Node.preorders more)) : Written s vs more :=
  forall₂_makes_change hf h hchange

theorem fillDeepest (h : Written s vs nodes) (text : String) :
    Written s vs (fillDeepest text nodes) :=
  h.change (fun _ _ ht => ht.appendText text)
    (Node.forall₂_preorders_modifyLast (·.appendText text) nodes)

theorem roundNodes {copy : Repeat} {round : List Node × Progress}
    (h : Written s vs round.1) : Written s vs (roundNodes s copy round) := by
  rw [Unrolling.roundNodes]
  split
  · exact h.fillDeepest _
  · exact h

theorem inCopy (h : Written s vs nodes) (copy : Option Repeat) :
    Written s vs (nodes.map (inCopy copy)) :=
  h.change (f := fun t => { t with copy := t.copy.or copy })
    (fun _ _ ht => ht.setCopy _) (Node.forall₂_preorders_map nodes)

theorem placeText (h : Written s vs nodes) (text : String) :
    Written s vs (placeText s text nodes) := by
  refine h.change ?_ (Node.forall₂_preorders_modifyLast (fun tag =>
    if s.href && (tag.appendText text).name == some "a" then
      Unrolling.withTarget (tag.appendText text) text
        else tag.appendText text) nodes)
  intro v t ht
  split
  · exact (ht.appendText text).withTarget text
  · exact ht.appendText text

end Written

section Runs

variable {s : Settings} {chain : Chain}

theorem written_copiesFrom {implicit : Bool} {count inside : Nat}
    {once : Option Repeat → Chain → Progress → List Node × Progress}
    {vs : Chain → List Visit}
    (htakes : ∀ copy chain, Takes inside (once copy chain))
    (honce : ∀ copy chain p, inside ≤ p.budget →
      Written s (vs chain) (once copy chain p).1) {left : Nat}
    (hleft : left ≤ count) {p : Progress}
    (hp : left * (inside + 1) ≤ p.budget) :
    Written s
      ((List.range' (count - left) left).flatMap fun i =>
        vs (⟨count, i, implicit⟩ :: chain))
      (copiesFrom s chain implicit count once left p).1 := by
  refine copiesFrom_induction (motive := fun left _ run => left ≤ count →
    Written s ((List.range' (count - left) left).flatMap fun i => vs (⟨count, i,
          implicit⟩ :: chain)) run.1) htakes (fun _ _ => .nil) ?_ hp hleft
  intro left p rest hcovered hrest hleft
  have hnext : count - (left + 1) + 1 = count - left := by omega
  have hround : Written s (vs (⟨count, count - (left + 1), implicit⟩ :: chain))
      (roundAt chain implicit count once (count - (left + 1)) p).1 :=
        honce _ _ p (by omega)
  rw [List.range'_succ, List.flatMap_cons, hnext]
  exact hround.roundNodes.append (hrest (by omega))

theorem written_repeated {r : Option Repeater} {inside : Nat}
    {once : Option Repeat → Chain → Progress → List Node × Progress}
    {vs : Chain → List Visit}
    (htakes : ∀ copy chain, Takes inside (once copy chain))
    (honce : ∀ copy chain p, inside ≤ p.budget →
      Written s (vs chain) (once copy chain p).1) {p : Progress}
    (hp : s.repeatedRounds r inside ≤ p.budget) :
    Written s (s.inCopies chain r vs) (repeated s chain r once p).1 := by
  cases r with
  | none => exact honce none chain p hp
  | some r =>
      have hloop : Written s
          ((List.range' (s.copies r - s.copies r) (s.copies r)).flatMap fun i =>
            vs (⟨s.copies r, i, r.implicit⟩ :: chain))
          (copiesFrom s chain r.implicit (s.copies r) once (s.copies r) p).1 :=
        written_copiesFrom htakes honce (Nat.le_refl _) hp
      rwa [Nat.sub_self, ← List.range_eq_range'] at hloop

variable (s)

mutual

theorem written_statementOnce (t : Statement) (copy : Option Repeat)
    (chain : Chain) (p : Progress) (hp : s.roundsOf t.children ≤ p.budget) :
    Written s (visitsOnce s chain t) (statementOnce s t copy chain p).1 := by
  match t with
  | .element e children =>
      change s.roundsOf children ≤ p.budget at hp
      have hbelow := written_statementsNodes children chain
        ((p.readingOption e.name).readingOption e.value) (by simpa using hp)
      have htag : Visit.Makes s ⟨chain, e⟩ (elementTag s chain copy e) :=
        ⟨copy, .nothing _⟩
      rw [statementOnce, elementNodes_eq, visitsOnce]
      -- A text that holds no children comes in front of them all the same.
      dsimp only
      split <;>
        (simp only [Written, Node.preorders_cons, Node.preorder_mk,
          Node.preorders_nil, List.append_nil, List.cons_append,
          List.nil_append]
         exact .cons htag hbelow)
  | .group children r =>
      exact (written_statementsNodes children chain p hp).inCopy copy

theorem written_statementNodes (t : Statement) (chain : Chain) (p : Progress)
    (hp : s.rounds t ≤ p.budget) :
    Written s (visits s chain t) (statementNodes s chain t p).1 := by
  have htakes : ∀ copy chain,
      Takes (s.roundsOf t.children) (statementOnce s t copy chain) :=
    takes_statementOnce s t
  have honce : ∀ copy chain p, s.roundsOf t.children ≤ p.budget →
      Written s (visitsOnce s chain t) (statementOnce s t copy chain p).1 :=
    fun copy chain p => written_statementOnce t copy chain p
  rw [s.rounds_eq] at hp
  rw [statementNodes_eq, visits_eq]
  exact written_repeated htakes honce hp

/-- A run within its budget writes the tags of the visits. -/
theorem written_statementsNodes (ts : List Statement) (chain : Chain)
    (p : Progress) (hp : s.roundsOf ts ≤ p.budget) :
    Written s (visitsOf s chain ts) (statementsNodes s chain ts p).1 := by
  match ts with
  | [] =>
      rw [statementsNodes]
      exact .nil
  | t :: ts =>
      rw [Settings.roundsOf] at hp
      obtain ⟨hbudget, -⟩ := takes_statementNodes s t chain p (by omega)
      rw [statementsNodes_cons, visitsOf]
      exact (written_statementNodes t chain p (by omega)).append
        (written_statementsNodes ts chain _ (by omega))

end

end Runs

end Unrolling

end Scaffold

import Scaffold.Proofs.Node.Preorder
import Scaffold.Proofs.Repeat.Unrolling
import Scaffold.Proofs.Statement.Written
import Scaffold.Proofs.Unrolling.Guard
/-!
What every tag of an unrolled tree has.  If something is written of each
element, something is left of it in each of its copies: a replacement text is
added to a tag, and takes nothing away.  A loop numbers its copies from zero,
below their count.  Main statement: `allTags_ofSource?`.
-/
namespace Scaffold

/-- A tag as unrolling makes it: something is written of it, and its copy is one
of those counted. -/
structure Tag.IsWritten (t : Tag) : Prop where
  part : t.name.isSome = true ∨ t.attributes.isSome = true ∨
    t.value.isSome = true
  copy_lt : ∀ r ∈ t.copy, r.value < r.count

namespace Tag.IsWritten

variable {t : Tag}

theorem appendText (h : t.IsWritten) (text : String) :
    (t.appendText text).IsWritten :=
  ⟨.inr (.inr rfl), h.copy_lt⟩

theorem mapAttributes (h : t.IsWritten) (f : List Attribute → List Attribute) :
    ({ t with attributes := t.attributes.map f } : Tag).IsWritten :=
  ⟨by simpa using h.part, h.copy_lt⟩

theorem setAttributes (h : t.IsWritten) (attributes : List Attribute) :
    ({ t with attributes := some attributes } : Tag).IsWritten :=
  ⟨.inr (.inl rfl), h.copy_lt⟩

theorem inCopy (h : t.IsWritten) {copy : Option Repeat}
    (hcopy : ∀ r ∈ copy, r.value < r.count) :
    ({ t with copy := t.copy.or copy } : Tag).IsWritten := by
  refine ⟨h.part, ?_⟩
  intro r hr
  rcases Option.or_eq_some_iff.1 hr with hown | ⟨-, houter⟩
  · exact h.copy_lt r hown
  · exact hcopy r houter

end Tag.IsWritten

namespace Unrolling

variable (s : Settings)

theorem isWritten_elementTag (chain : Chain) {copy : Option Repeat}
    {e : ElementTokens} (he : e.isEmpty = false)
    (hcopy : ∀ r ∈ copy, r.value < r.count) :
    (elementTag s chain copy e).IsWritten := by
  refine ⟨?_, hcopy⟩
  rw [elementTag, bareTag, Option.isSome_map, Option.isSome_map,
    Option.isSome_map]
  by_contra hnone
  rw [not_or, not_or, Option.not_isSome_iff_eq_none,
    Option.not_isSome_iff_eq_none, Option.not_isSome_iff_eq_none] at hnone
  simp [ElementTokens.isEmpty, hnone] at he

theorem allTags_elementNodes (chain : Chain) {copy : Option Repeat}
    {e : ElementTokens} (he : e.isEmpty = false)
    (hcopy : ∀ r ∈ copy, r.value < r.count)
    {children : Progress → List Node × Progress}
    (hchildren : ∀ p, Node.AllTags Tag.IsWritten (children p).1)
    (p : Progress) :
    Node.AllTags Tag.IsWritten (elementNodes s chain copy e children p).1 := by
  have htag := isWritten_elementTag s chain he hcopy
  rw [elementNodes_eq]
  dsimp only
  split
  · exact Node.allTags_cons.2 ⟨htag, Node.allTags_nil, hchildren _⟩
  · exact Node.allTags_cons.2 ⟨htag, hchildren _, Node.allTags_nil⟩

theorem allTags_fillDeepest (text : String) {nodes : List Node}
    (h : Node.AllTags Tag.IsWritten nodes) :
    Node.AllTags Tag.IsWritten (fillDeepest text nodes) := by
  apply h.modifyLast
  intro t ht
  exact Node.allTags_cons.2 ⟨ht.appendText text, Node.allTags_nil,
    Node.allTags_nil⟩

/-- All copies that are made of something are written, each with its number
below their count. -/
theorem allTags_copiesFrom (chain : Chain) (implicit : Bool) {count : Nat}
    {once : Option Repeat → Chain → Progress → List Node × Progress}
    (honce : ∀ (copy : Option Repeat) chain p, (∀ r ∈ copy, r.value < r.count) →
      Node.AllTags Tag.IsWritten (once copy chain p).1) {left : Nat}
    (hleft : left ≤ count) (p : Progress) :
    Node.AllTags Tag.IsWritten
      (copiesFrom s chain implicit count once left p).1 := by
  induction left generalizing p with
  | zero => exact Node.allTags_nil
  | succ left ih =>
      obtain ⟨copy, nodes, q, rfl, hnodes, -, -, hrun⟩ :=
        copiesFrom_succ s chain implicit count once left p
      have hnumber : count - (left + 1) < count := by omega
      have hcopy : ∀ r ∈ some (⟨count, count - (left + 1), implicit⟩ : Repeat),
          r.value < r.count := by
        rintro r ⟨⟩
        exact hnumber
      have hround : Node.AllTags Tag.IsWritten nodes := by
        rcases hnodes with rfl | ⟨text, rfl⟩
        · exact honce _ _ p hcopy
        · exact allTags_fillDeepest text (honce _ _ p hcopy)
      rw [hrun]
      split
      · exact hround
      · exact Node.allTags_append.2 ⟨hround, ih (Nat.le_of_succ_le hleft) q⟩

theorem allTags_repeated (chain : Chain) (r : Option Repeater)
    {once : Option Repeat → Chain → Progress → List Node × Progress}
    (honce : ∀ (copy : Option Repeat) chain p, (∀ r ∈ copy, r.value < r.count) →
      Node.AllTags Tag.IsWritten (once copy chain p).1) (p : Progress) :
    Node.AllTags Tag.IsWritten (repeated s chain r once p).1 := by
  cases r with
  | none => exact honce none chain p (by simp)
  | some r =>
      exact allTags_copiesFrom s chain r.implicit honce (Nat.le_refl _) p

mutual

theorem allTags_statementNodes (chain : Chain) {t : Statement}
    (h : t.Holds fun e => e.isEmpty = false) (p : Progress) :
    Node.AllTags Tag.IsWritten (statementNodes s chain t p).1 := by
  match t with
  | .element e children =>
      rw [statementNodes]
      apply allTags_repeated
      intro copy chain p hcopy
      exact allTags_elementNodes s chain h.1 hcopy
        (allTags_statementsNodes chain h.2) p
  | .group children r =>
      rw [statementNodes]
      apply allTags_repeated
      intro copy chain p hcopy
      exact (allTags_statementsNodes chain h p).map (fun _ => rfl) fun n hn =>
        hn.inCopy hcopy

theorem allTags_statementsNodes (chain : Chain) {ts : List Statement}
    (h : Statement.AllHold (fun e => e.isEmpty = false) ts) (p : Progress) :
    Node.AllTags Tag.IsWritten (statementsNodes s chain ts p).1 := by
  match ts with
  | [] =>
      rw [statementsNodes]
      exact Node.allTags_nil
  | t :: ts =>
      rw [statementsNodes]
      exact Node.allTags_append.2
        ⟨allTags_statementNodes chain h.1 p,
          allTags_statementsNodes chain h.2 _⟩

end

theorem isWritten_withTarget {t : Tag} (h : t.IsWritten) (text : String) :
    (withTarget t text).IsWritten := by
  rw [withTarget]
  split
  · exact h
  · split
    · split
      · exact h
      · exact h.mapAttributes _
    · exact h.setAttributes _

theorem allTags_placeText (text : String) {nodes : List Node}
    (h : Node.AllTags Tag.IsWritten nodes) :
    Node.AllTags Tag.IsWritten (placeText s text nodes) := by
  apply h.modifyLast
  intro t ht
  have hfilled := ht.appendText text
  refine Node.allTags_cons.2 ⟨?_, Node.allTags_nil, Node.allTags_nil⟩
  dsimp only
  split
  · exact isWritten_withTarget hfilled text
  · exact hfilled

theorem allTags_unroll {statements : List Statement}
    (h : Statement.AllHold (fun e => e.isEmpty = false) statements) :
    Node.AllTags Tag.IsWritten (unroll s statements).nodes := by
  have hnodes := allTags_statementsNodes s [] h { budget := max s.maxRepeat 1 }
  rw [unroll]
  dsimp only
  split
  · dsimp only
    split
    · exact hnodes
    · exact allTags_placeText s _ hnodes
  · exact hnodes

/-- Something is written of each node that a source stands for, and its copy is
one of those counted. -/
theorem allTags_ofSource? {jsx : Bool} {source : String} {outcome : Outcome}
    (h : Node.ofSource? jsx s source = .ok outcome) :
    Node.AllTags Tag.IsWritten outcome.nodes := by
  rw [Node.ofSource?] at h
  split at h
  · cases h
  · split at h
    · cases h
    · next hparse =>
        cases h
        exact allTags_unroll s (Statement.allHold_of_parse hparse)

end Unrolling

end Scaffold

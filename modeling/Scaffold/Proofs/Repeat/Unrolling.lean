import Scaffold.Proofs.Repeat.Alike
import Scaffold.Proofs.Unrolling.Plain
/-!
Unrolling with bare repeaters and with counted ones.  Without replacement text a
bare repeater makes as many copies as a counted one, and its mark does not show
in any number.  Besides the mark it leaves an empty text in the last leaf of a
copy, so the nodes are alike if all these leaves are free to get it.  Main
statement: `unroll_alike`.
-/
namespace Scaffold

def Repeater.counted (r : Repeater) : Repeater := { r with implicit := false }

/-- A token that stands nowhere in particular. -/
def Token.unplaced (t : Token) : Token := ⟨t.kind, 0, 0⟩

def AttributeTokens.unplaced (a : AttributeTokens) : AttributeTokens :=
  { a with name := a.name.map (·.map Token.unplaced),
           value := a.value.map (·.map Token.unplaced) }

/-- What an element is apart from places in the source and from how its count is
given. -/
def ElementTokens.canonical (e : ElementTokens) : ElementTokens where
  name := e.name.map (·.map Token.unplaced)
  attributes := e.attributes.map (·.map AttributeTokens.unplaced)
  value := e.value.map (·.map Token.unplaced)
  repeater := e.repeater.map Repeater.counted
  selfClosing := e.selfClosing

namespace Statement

mutual

/-- What a statement is apart from places in the source and from how its counts
are given. -/
def canonical : Statement → Statement
  | .element e children => .element e.canonical (canonicals children)
  | .group children r => .group (canonicals children) (r.map Repeater.counted)

def canonicals : List Statement → List Statement
  | [] => []
  | t :: ts => canonical t :: canonicals ts

end

mutual

/-- The element that the last leaf of a statement's nodes is from, if it makes
any. -/
def leaf? : Statement → Option ElementTokens
  | .element e children => (leafOf? children).or (some e)
  | .group children _ => leafOf? children

def leafOf? : List Statement → Option ElementTokens
  | [] => none
  | t :: ts => (leafOf? ts).or (leaf? t)

end

mutual

def HoldsAtBare (P : ElementTokens → Prop) : Statement → Prop
  | .element e children =>
      (∀ r ∈ e.repeater, r.implicit = true →
        ∀ last ∈ leaf? (.element e children), P last) ∧ AllHoldAtBare P children
  | .group children r =>
      (∀ x ∈ r, x.implicit = true → ∀ last ∈ leaf? (.group children r),
        P last) ∧ AllHoldAtBare P children

def AllHoldAtBare (P : ElementTokens → Prop) : List Statement → Prop
  | [] => True
  | t :: ts => HoldsAtBare P t ∧ AllHoldAtBare P ts

end

end Statement

namespace Unrolling

/-! ### What is written does not depend on places and marks -/

theorem ancestor?_map_counted (chain : Chain) (levels : Nat) :
    ancestor? (chain.map Repeat.counted) levels =
      (ancestor? chain levels).map Repeat.counted := by
  cases chain with
  | nil => rfl
  | cons copy outer =>
      simp only [ancestor?, List.map_cons, List.length_map, List.getElem?_map]
      split <;> rfl

theorem numberValue_map_counted (n : Numbering) (chain : Chain) :
    numberValue n (chain.map Repeat.counted) = numberValue n chain := by
  cases chain with
  | nil => rfl
  | cons copy outer =>
      have hancestor := ancestor?_map_counted (copy :: outer) n.levels
      rw [List.map_cons] at hancestor ⊢
      rw [numberValue, numberValue, hancestor]
      cases ancestor? (copy :: outer) n.levels <;> rfl

section Writing

variable {s : Settings} (text : s.text = none) (chain : Chain)

include text

theorem tokenText_unplaced (t : Token) :
    tokenText s (chain.map Repeat.counted) t.unplaced =
      tokenText s chain t := by
  have hnone : ∀ position, s.textAt position = "" := by
    intro position
    simp only [Settings.textAt, text]
  rw [tokenText, tokenText, Token.unplaced]
  simp only [numberValue_map_counted, hnone]

theorem nameText_unplaced (ts : List Token) :
    nameText s (chain.map Repeat.counted) (ts.map Token.unplaced) =
      nameText s chain ts := by
  rw [nameText, nameText, List.map_map]
  congr 1
  apply List.map_congr_left
  intro t _
  exact tokenText_unplaced text chain t

theorem piecesFrom_unplaced (front : String) (ts : List Token) :
    piecesFrom s (chain.map Repeat.counted) front (ts.map Token.unplaced) =
      piecesFrom s chain front ts := by
  induction ts generalizing front with
  | nil => rfl
  | cons t ts ih =>
      rw [List.map_cons, piecesFrom, piecesFrom,
        tokenText_unplaced text chain t]
      simp only [ih, Token.unplaced]

omit text in
theorem dropLastIf_unplaced {test : Token → Bool}
    (htest : ∀ t, test t.unplaced = test t) (ts : List Token) :
    dropLastIf test (ts.map Token.unplaced) =
      (dropLastIf test ts).map Token.unplaced := by
  rw [dropLastIf, dropLastIf, List.getLast?_map]
  cases ts.getLast? with
  | none => rfl
  | some t =>
      simp only [Option.map_some, htest]
      split
      · rw [List.map_dropLast]
      · rfl

omit text in
theorem unwrapValue_unplaced (plain : ValueKind) (ts : List Token) :
    unwrapValue plain (ts.map Token.unplaced) =
      ((unwrapValue plain ts).1.map Token.unplaced,
        (unwrapValue plain ts).2) := by
  cases ts with
  | nil => rfl
  | cons t ts =>
      rw [List.map_cons, unwrapValue, unwrapValue]
      have hkind : t.unplaced.kind = t.kind := rfl
      rw [hkind]
      split
      · rw [dropLastIf_unplaced fun _ => rfl]
      · rw [dropLastIf_unplaced fun _ => rfl]
      · rfl

theorem attributeOf_unplaced (a : AttributeTokens) :
    attributeOf s (chain.map Repeat.counted) a.unplaced =
      attributeOf s chain a := by
  have hname : a.unplaced.name.map
        (fun tokens => (nameText s (chain.map Repeat.counted) tokens).toList) =
      a.name.map (fun tokens => (nameText s chain tokens).toList) := by
    rw [AttributeTokens.unplaced, Option.map_map]
    congr 1
    funext tokens
    exact congrArg String.toList (nameText_unplaced text chain tokens)
  have hpieces : ∀ ts : List Token,
      pieces s (chain.map Repeat.counted) (ts.map Token.unplaced) =
      pieces s chain ts := fun ts => piecesFrom_unplaced text chain "" ts
  have hvalue : a.unplaced.value = a.value.map (·.map Token.unplaced) := rfl
  rw [attributeOf, attributeOf, hname, hvalue]
  cases a.value with
  | none => rfl
  | some ts =>
      simp only [Option.map_some, unwrapValue_unplaced, hpieces]
      rfl

end Writing

def elementTag (s : Settings) (chain : Chain) (copy : Option Repeat)
    (e : ElementTokens) : Tag :=
  { bareTag s chain copy e with
    attributes := e.attributes.map (·.map (attributeOf s chain)) }

theorem elementTag_canonical {s : Settings} (text : s.text = none)
    (chain : Chain) (copy : Option Repeat) (e : ElementTokens) :
    elementTag s (chain.map Repeat.counted) copy e.canonical =
      elementTag s chain copy e := by
  have hname : e.canonical.name.map (nameText s (chain.map Repeat.counted)) =
      e.name.map (nameText s chain) := by
    rw [ElementTokens.canonical, Option.map_map]
    congr 1
    funext tokens
    exact nameText_unplaced text chain tokens
  have hvalue : e.canonical.value.map (pieces s (chain.map Repeat.counted)) =
      e.value.map (pieces s chain) := by
    rw [ElementTokens.canonical, Option.map_map]
    congr 1
    funext tokens
    exact piecesFrom_unplaced text chain "" tokens
  have hattributes : e.canonical.attributes.map
        (·.map (attributeOf s (chain.map Repeat.counted))) =
      e.attributes.map (·.map (attributeOf s chain)) := by
    rw [ElementTokens.canonical, Option.map_map]
    congr 1
    funext attributes
    rw [Function.comp_apply, List.map_map]
    congr 1
    funext a
    exact attributeOf_unplaced text chain a
  rw [elementTag, elementTag, bareTag, bareTag, hname, hvalue, hattributes]
  rfl

theorem elementTag_congr {s : Settings} (text : s.text = none)
    {chain chain' : Chain}
    (hchain : chain.map Repeat.counted = chain'.map Repeat.counted)
    (copy : Option Repeat) {e e' : ElementTokens}
    (he : e.canonical = e'.canonical) :
    elementTag s chain copy e = elementTag s chain' copy e' := by
  rw [← elementTag_canonical text chain copy e, hchain, he,
    elementTag_canonical text chain']

/-! ### Runs -/

/-- Progress that differs at most in what has become of a replacement text. -/
structure Progress.Level (p q : Progress) : Prop where
  budget : p.budget = q.budget
  iterations : p.iterations = q.iterations

/-- What a run yields with bare repeaters and with counted ones: nodes that are
alike, and the same iterations.  The last leaf is from the given element, if
there are nodes at all, and can take an empty text wherever the tags of that
element can. -/
structure AlikeRuns (s : Settings) (free : Tag → Prop)
    (leaf : Option ElementTokens) (left right : List Node × Progress) :
    Prop where
  nodes : Node.AllAlike free left.1 right.1
  level : left.2.Level right.2
  none_eq : leaf = none → right.1 = []
  some_ne : leaf.isSome = true → right.1 ≠ []
  takes : ∀ e ∈ leaf, (∀ chain copy, (elementTag s chain copy e).Takes free) →
    Node.HoldsAtLast (Tag.Takes free) right.1

namespace AlikeRuns

variable {s : Settings} {free : Tag → Prop} {leaf more : Option ElementTokens}
  {left right left' right' : List Node × Progress}

theorem append (h : AlikeRuns s free leaf left right)
    (h' : AlikeRuns s free more left' right') :
    AlikeRuns s free (more.or leaf) (left.1 ++ left'.1, left'.2)
      (right.1 ++ right'.1, right'.2) where
  nodes := h.nodes.append h'.nodes
  level := h'.level
  none_eq hnone := by
    obtain ⟨hmore, hleaf⟩ := Option.or_eq_none_iff.1 hnone
    rw [h.none_eq hleaf, h'.none_eq hmore, List.append_nil]
  some_ne hsome := by
    rw [ne_eq, List.append_eq_nil_iff, not_and_or]
    rw [Option.isSome_or, Bool.or_eq_true] at hsome
    exact hsome.symm.imp h.some_ne h'.some_ne
  takes e he htakes := by
    cases more with
    | none =>
        rw [h'.none_eq rfl, List.append_nil]
        exact h.takes e he htakes
    | some e' =>
        rw [Node.holdsAtLast_append (h'.some_ne rfl)]
        exact h'.takes e he htakes

theorem of_level (h : AlikeRuns s free leaf left right) {p q : Progress}
    (hpq : p.Level q) : AlikeRuns s free leaf (left.1, p) (right.1, q) :=
  ⟨h.nodes, hpq, h.none_eq, h.some_ne, h.takes⟩

theorem fill (h : AlikeRuns s free leaf left right)
    (htakes : ∀ e ∈ leaf, ∀ chain copy,
      (elementTag s chain copy e).Takes free) :
    AlikeRuns s free leaf (fillDeepest "" left.1, left.2) right := by
  refine ⟨?_, h.level, h.none_eq, h.some_ne, h.takes⟩
  cases leaf with
  | none =>
      have hright := h.none_eq rfl
      have hleft := h.nodes.eq_nil_iff.2 hright
      rw [hleft, hright]
      trivial
  | some e => exact h.nodes.fillDeepest (h.takes e rfl (htakes e rfl))

theorem inCopy (h : AlikeRuns s free leaf left right)
    (hfree : ∀ t copy, free t → free { t with copy := copy })
    {copy copy' : Option Repeat}
    (hcopy : copy.map Repeat.counted = copy'.map Repeat.counted) :
    AlikeRuns s free leaf (left.1.map (inCopy copy), left.2)
      (right.1.map (Unrolling.inCopy copy'), right.2) where
  nodes := by
    refine h.nodes.map fun n m hnm => ?_
    obtain ⟨t, cs⟩ := n
    obtain ⟨u, ds⟩ := m
    obtain ⟨htu, hbelow⟩ := hnm
    refine ⟨⟨htu.name, htu.attributes, htu.selfClosing, ?_, ?_⟩, hbelow⟩
    · rw [Option.map_or, Option.map_or, htu.copy, hcopy]
    · exact htu.value.imp_right fun heq => ⟨hfree u _ heq.1, heq.2⟩
  level := h.level
  none_eq hnone := by rw [h.none_eq hnone, List.map_nil]
  some_ne hsome := by simpa using h.some_ne hsome
  takes e he htakes := by
    apply Node.holdsAtLast_map
      (f := fun t => { t with copy := t.copy.or copy' }) _ (h.takes e he htakes)
    rintro t (ht | ht)
    · exact .inl (hfree t _ ht)
    · exact .inr ht

end AlikeRuns

/-- Runs that are alike in copies that differ in marks only. -/
def AlikeOnce (s : Settings) (free : Tag → Prop) (leaf : Option ElementTokens)
    (once once' : Option Repeat → Chain → Progress → List Node × Progress) :
    Prop :=
  ∀ (copy copy' : Option Repeat) (chain chain' : Chain) (p q : Progress),
    copy.map Repeat.counted = copy'.map Repeat.counted →
    chain.map Repeat.counted = chain'.map Repeat.counted → p.Level q →
    AlikeRuns s free leaf (once copy chain p) (once' copy' chain' q)

section Runs

variable {s : Settings} {free : Tag → Prop} {leaf : Option ElementTokens}

theorem level_readings {p q : Progress} (hpq : p.Level q)
    (e e' : ElementTokens) :
    ((p.readingOption e.name).readingOption e.value).Level
      ((q.readingOption e'.name).readingOption e'.value) :=
  ⟨by simpa using hpq.budget, by simpa using hpq.iterations⟩

theorem elementNodes_eq (s : Settings) (chain : Chain) (copy : Option Repeat)
    (e : ElementTokens)
    (children : Progress → List Node × Progress) (p : Progress) :
    elementNodes s chain copy e children p =
      (let below := children ((p.readingOption e.name).readingOption e.value)
       let tag := elementTag s chain copy e
       let p := below.2.readingAttributes (e.attributes.getD [])
       if tag.isText && tag.value.isSome && !tag.hasField then
         (⟨tag, []⟩ :: below.1, p)
       else ([⟨tag, below.1⟩], p)) := rfl

/-- The nodes of an element above nodes that are alike. -/
theorem alikeOnce_element (text : s.text = none) {e e' : ElementTokens}
    (he : e.canonical = e'.canonical)
    {below below' : Chain → Progress → List Node × Progress}
    (hbelow : ∀ (chain chain' : Chain) (p q : Progress),
      chain.map Repeat.counted = chain'.map Repeat.counted → p.Level q →
      AlikeRuns s free leaf (below chain p) (below' chain' q)) :
    AlikeOnce s free (leaf.or (some e))
      (fun copy chain p => elementNodes s chain copy e (below chain) p)
      (fun copy chain p => elementNodes s chain copy e' (below' chain) p) := by
  intro copy copy' chain chain' p q hcopy hchain hpq
  have hchildren := hbelow chain chain' _ _ hchain (level_readings hpq e e')
  have htags : (elementTag s chain copy e).Alike free
      (elementTag s chain copy' e) :=
    ⟨rfl, rfl, rfl, hcopy, .inl rfl⟩
  have hlevel : (Progress.readingAttributes
      (below chain ((p.readingOption e.name).readingOption e.value)).2
      (e.attributes.getD [])).Level (Progress.readingAttributes
      (below' chain' ((q.readingOption e'.name).readingOption e'.value)).2
      (e'.attributes.getD [])) :=
    ⟨by simpa using hchildren.level.budget,
      by simpa using hchildren.level.iterations⟩
  have hsome : leaf.or (some e) ≠ none := by simp
  dsimp only
  rw [elementNodes_eq, elementNodes_eq, ← elementTag_congr text hchain copy' he]
  have hvalue : (elementTag s chain copy e).value =
      (elementTag s chain copy' e).value := rfl
  simp only [htags.isText, htags.hasField, hvalue]
  have htakes : ∀ last ∈ leaf.or (some e),
      (∀ chain copy, (elementTag s chain copy last).Takes free) →
      Node.HoldsAtLast (Tag.Takes free) [⟨elementTag s chain copy' e,
        (below' chain'
          ((q.readingOption e'.name).readingOption e'.value)).1⟩] := by
    intro last hlast htakes
    cases leaf with
    | none =>
        obtain rfl := Option.some.inj hlast
        rw [hchildren.none_eq rfl]
        exact htakes chain copy'
    | some e₁ =>
        rw [Node.holdsAtLast_singleton (hchildren.some_ne rfl)]
        exact hchildren.takes last hlast htakes
  by_cases hplain : ((elementTag s chain copy' e).isText && (elementTag s chain
    copy' e).value.isSome && !(elementTag s chain copy' e).hasField) = true
  · -- A plain text stands beside what is written below it.
    rw [if_pos hplain, if_pos hplain]
    exact ⟨⟨⟨htags, trivial⟩, hchildren.nodes⟩, hlevel, fun h =>
      absurd h hsome, by simp, fun last hlast hfree =>
      Node.holdsAtLast_beside.2 (htakes last hlast hfree)⟩
  · rw [if_neg hplain, if_neg hplain]
    exact ⟨⟨⟨htags, hchildren.nodes⟩, trivial⟩, hlevel, fun h =>
      absurd h hsome, by simp, htakes⟩

/-- A copy, filled if it has to be. -/
theorem exists_copy (text : s.text = none) {implicit : Bool}
    (hfills : implicit = true → ∀ e ∈ leaf, ∀ chain copy,
      (elementTag s chain copy e).Takes free) {chain : Chain}
    {once : Option Repeat → Chain → Progress → List Node × Progress}
    {count left : Nat} {p : Progress} {right : List Node × Progress}
    (hfirst : AlikeRuns s free leaf (once (some ⟨count, count - (left + 1),
      implicit⟩) (⟨count, count - (left + 1), implicit⟩ :: chain) p) right) :
    ∃ nodes p₁,
      copiesFrom s chain implicit count once (left + 1) p =
          (if p₁.budget = 0 then (nodes, p₁)
            else (nodes ++ (copiesFrom s chain implicit count once left p₁).1,
              (copiesFrom s chain implicit count once left p₁).2)) ∧
        AlikeRuns s free leaf (nodes, p₁) (right.1, right.2.tick) := by
  have hempty : ∀ position, s.textAt position = "" := by
    intro position
    simp only [Settings.textAt, text]
  have htick : ∀ p q : Progress, p.Level q →
      p.tick.Level q.tick := fun p q hpq =>
    ⟨congrArg (· - 1) hpq.budget, congrArg (· + 1) hpq.iterations⟩
  rw [copiesFrom]
  simp only [hempty]
  refine ⟨_, _, rfl, ?_⟩
  split
  · next hfill =>
      have himplicit : implicit = true := by
        rw [Bool.and_eq_true, Bool.and_eq_true] at hfill
        exact hfill.1.1
      exact (hfirst.fill (hfills himplicit)).of_level
        (htick _ _ ⟨hfirst.level.budget, hfirst.level.iterations⟩)
  · exact hfirst.of_level (htick _ _ hfirst.level)

/-- One copy and those behind it. -/
theorem alikeRuns_step (text : s.text = none) {implicit : Bool}
    (hfills : implicit = true → ∀ e ∈ leaf, ∀ chain copy,
      (elementTag s chain copy e).Takes free) {chain chain' : Chain}
    (hchain : chain.map Repeat.counted = chain'.map Repeat.counted)
    {once once' : Option Repeat → Chain → Progress → List Node × Progress}
    (honce : AlikeOnce s free leaf once once') {count left : Nat}
    {more : Option ElementTokens} (hmore : more.or leaf = leaf)
    (hrest : ∀ p q : Progress, p.Level q →
      AlikeRuns s free more (copiesFrom s chain implicit count once left p)
      (copiesFrom s chain' false count once' left q)) {p q : Progress}
    (hpq : p.Level q) :
    AlikeRuns s free leaf (copiesFrom s chain implicit count once (left + 1) p)
      (copiesFrom s chain' false count once' (left + 1) q) := by
  have hfirst := honce (some ⟨count, count - (left + 1), implicit⟩)
    (some ⟨count, count - (left + 1), false⟩)
      (⟨count, count - (left + 1), implicit⟩ :: chain)
    (⟨count, count - (left + 1), false⟩ :: chain') p q rfl
    (by simp only [List.map_cons, hchain]; rfl) hpq
  obtain ⟨nodes, p₁, hcopies, hcopy⟩ := exists_copy text hfills hfirst
  have hbudget := hcopy.level.budget
  dsimp only at hbudget
  rw [hcopies, copiesFrom]
  simp only [Bool.false_and, Bool.false_eq_true, if_false, ← hbudget]
  split
  · exact hcopy
  · have hbehind := hcopy.append (hrest p₁ _ hcopy.level)
    rwa [hmore] at hbehind

/-- The copies of what is alike in each of them. -/
theorem alikeRuns_copiesFrom (text : s.text = none) {implicit : Bool}
    (hfills : implicit = true → ∀ e ∈ leaf, ∀ chain copy,
      (elementTag s chain copy e).Takes free) {chain chain' : Chain}
    (hchain : chain.map Repeat.counted = chain'.map Repeat.counted)
    {once once' : Option Repeat → Chain → Progress → List Node × Progress}
    (honce : AlikeOnce s free leaf once once') (count left : Nat)
    {p q : Progress} (hpq : p.Level q) :
    AlikeRuns s free leaf (copiesFrom s chain implicit count once (left + 1) p)
      (copiesFrom s chain' false count once' (left + 1) q) := by
  have hlone : ∀ p q : Progress, p.Level q →
      AlikeRuns s free none ([], p) ([], q) :=
    fun p q hpq => ⟨trivial, hpq, fun _ => rfl, by simp, by simp⟩
  induction left generalizing p q with
  | zero =>
      exact alikeRuns_step text hfills hchain honce (Option.none_or)
        (by simpa only [copiesFrom] using hlone) hpq
  | succ left ih =>
      exact alikeRuns_step text hfills hchain honce (Option.or_self)
        (fun p q => ih) hpq

theorem alikeRuns_repeated (text : s.text = none) {r r' : Option Repeater}
    (hr : r.map Repeater.counted = r'.map Repeater.counted)
    (explicit : isExplicitRepeater r' = true)
    (hfills : ∀ x ∈ r, x.implicit = true → ∀ e ∈ leaf, ∀ chain copy,
      (elementTag s chain copy e).Takes free) {chain chain' : Chain}
    (hchain : chain.map Repeat.counted = chain'.map Repeat.counted)
    {once once' : Option Repeat → Chain → Progress → List Node × Progress}
    (honce : AlikeOnce s free leaf once once') {p q : Progress}
    (hpq : p.Level q) :
    AlikeRuns s free leaf (repeated s chain r once p)
      (repeated s chain' r' once' q) := by
  match r, r' with
  | none, none => exact honce none none chain chain' p q rfl hchain hpq
  | none, some _ => cases hr
  | some _, none => cases hr
  | some x, some y =>
      have hcount : x.count = y.count := by
        injection hr with hr
        have hcount := congrArg Repeater.count hr
        exact hcount
      have himplicit : y.implicit = false := by
        simpa [isExplicitRepeater] using explicit
      obtain ⟨left, hleft⟩ : ∃ left, max y.count 1 = left + 1 :=
        ⟨max y.count 1 - 1, by omega⟩
      have hcopies : s.copies x = left + 1 := by
        simp only [Settings.copies, text, hcount, hleft]
      have hcopies' : s.copies y = left + 1 := by
        simp only [Settings.copies, text, hleft]
      have hrun := alikeRuns_copiesFrom text (hfills x rfl) hchain honce
        (left + 1) left hpq
      simp only [repeated, hcopies, hcopies', himplicit]
      apply hrun.of_level
      split
      · exact ⟨hrun.level.budget, hrun.level.iterations⟩
      · exact hrun.level

mutual

theorem alikeRuns_statement (text : s.text = none)
    (hfree : ∀ t copy, free t → free { t with copy := copy }) {t t' : Statement}
    (ht : t.canonical = t'.canonical) (explicit : isExplicit t' = true)
    (hbare : t.HoldsAtBare fun e => ∀ chain copy,
      (elementTag s chain copy e).Takes free) {chain chain' : Chain}
    (hchain : chain.map Repeat.counted = chain'.map Repeat.counted)
    {p q : Progress} (hpq : p.Level q) :
    AlikeRuns s free t.leaf? (statementNodes s chain t p)
      (statementNodes s chain' t' q) := by
  match t, t' with
  | .element e children, .element e' children' =>
      obtain ⟨he, hchildren⟩ := Statement.element.inj ht
      simp only [isExplicit, Bool.and_eq_true] at explicit
      simp only [statementNodes]
      apply alikeRuns_repeated text (congrArg ElementTokens.repeater he)
        explicit.1 hbare.1 hchain _ hpq
      exact alikeOnce_element text he fun chain chain' p q hchain hpq =>
        alikeRuns_statements text hfree hchildren explicit.2 hbare.2 hchain hpq
  | .group children r, .group children' r' =>
      obtain ⟨hchildren, hr⟩ := Statement.group.inj ht
      simp only [isExplicit, Bool.and_eq_true] at explicit
      simp only [statementNodes]
      apply alikeRuns_repeated text hr explicit.1 hbare.1 hchain _ hpq
      intro copy copy' chain chain' p q hcopy hchain hpq
      exact (alikeRuns_statements text hfree hchildren explicit.2 hbare.2 hchain
        hpq).inCopy hfree hcopy
  | .element _ _, .group _ _ => cases ht
  | .group _ _, .element _ _ => cases ht

theorem alikeRuns_statements (text : s.text = none)
    (hfree : ∀ t copy, free t → free { t with copy := copy })
    {ts ts' : List Statement}
    (hts : Statement.canonicals ts = Statement.canonicals ts')
    (explicit : isExplicitForest ts' = true)
    (hbare : Statement.AllHoldAtBare (fun e => ∀ chain copy,
      (elementTag s chain copy e).Takes free) ts) {chain chain' : Chain}
    (hchain : chain.map Repeat.counted = chain'.map Repeat.counted)
    {p q : Progress} (hpq : p.Level q) :
    AlikeRuns s free (Statement.leafOf? ts) (statementsNodes s chain ts p)
      (statementsNodes s chain' ts' q) := by
  match ts, ts' with
  | [], [] =>
      exact ⟨trivial, hpq, fun _ => rfl, by simp [Statement.leafOf?],
        by simp [Statement.leafOf?]⟩
  | [], _ :: _ => cases hts
  | _ :: _, [] => cases hts
  | t :: ts, t' :: ts' =>
      obtain ⟨ht, hts⟩ := List.cons.inj hts
      simp only [isExplicitForest, Bool.and_eq_true] at explicit
      have hfirst :=
        alikeRuns_statement text hfree ht explicit.1 hbare.1 hchain hpq
      exact hfirst.append
        (alikeRuns_statements text hfree hts explicit.2 hbare.2 hchain
          hfirst.level)

end

end Runs

end Unrolling

end Scaffold

import Mathlib
import Scaffold.Proofs.Node.Preorder
import Scaffold.Proofs.Node.Replacing
import Scaffold.Proofs.Unrolling.Placeless
import Scaffold.Proofs.Unrolling.Settled
import Scaffold.Statement.Parser
import Scaffold.Token.Lexer
/-!
Where the texts of a list come to the surface.  Every bare repeater makes a copy
for each text; if no text has landed in front of it and none lands in what it
repeats, each copy ends with its own text, and so it stands in the unrolled
tree; otherwise its copies are left as they are. Main statement:
`unroll_surfaces`.
-/
namespace Scaffold

namespace Node

theorem modifyLast_eq_nil_iff {f : Node → Node} {ns : List Node} :
    modifyLast f ns = [] ↔ ns = [] := by
  rcases ns with _ | ⟨c, _ | ⟨d, ds⟩⟩
  · exact Iff.rfl
  · simp [modifyLast]
  · simp [modifyLast]

/-- The tags in a row of nodes, in document order, without the marks of
copies. -/
def content (ns : List Node) : List Tag :=
  (preorders ns).map fun t => { t with copy := none }

theorem content_append (ns ms : List Node) :
    content (ns ++ ms) = content ns ++ content ms := by
  rw [content, preorders_append, List.map_append]
  rfl

theorem content_map_inCopy (copy : Option Repeat) (ns : List Node) :
    content (ns.map (Unrolling.inCopy copy)) = content ns := by
  induction ns with
  | nil => rfl
  | cons n ns ih =>
      obtain ⟨tag, children⟩ := n
      simp only [content, List.map_cons, preorders_cons, List.map_append]
        at ih ⊢
      rw [ih, Unrolling.inCopy, preorder_mk, preorder_mk, List.map_cons,
        List.map_cons]

end Node

namespace Unrolling

/-- Nodes that a text is put into end with it. -/
theorem exists_lastTag?_fillDeepest (part : String) {nodes : List Node}
    (hne : nodes ≠ []) :
    ∃ tag, Node.lastTag? (fillDeepest part nodes) = some tag ∧
    tag.EndsWith part := by
  obtain ⟨tag, htag⟩ := Node.exists_lastTag? hne
  refine ⟨tag.appendText part, ?_, tag.endsWith_appendText part⟩
  rw [fillDeepest, Node.lastTag?_modifyLast (·.appendText part), htag]
  rfl

namespace Conversion

/-- What is repeated, in the copy at a position. -/
def body (s : Settings) (c : Conversion) (count i : Nat) : List Node :=
  settledOnce s c.statement (some ⟨count, i, true⟩)
    (⟨count, i, true⟩ :: c.chain) (landedAt c.landed c.statement.onceLands i)

/-- The copy at a position, with its text unless text has landed by the end of
it. -/
def copy (s : Settings) (c : Conversion) (count : Nat) (part : String)
    (i : Nat) : List Node :=
  if c.landed || c.statement.onceLands then c.body s count i
  else fillDeepest part (c.body s count i)

end Conversion

/-! ### The text is asked for -/

section Asked

variable {s : Settings}

/-- No text has landed in front of a conversion, and none lands in what is
repeated, which comes to a node: so the text is put into its copies. -/
structure Conversion.Fills (s : Settings) (c : Conversion) : Prop where
  landed : c.landed = false
  quiet : c.statement.onceLands = false
  yields : ∀ count, settledOnce s c.statement (some ⟨count, 0, true⟩)
    (⟨count, 0, true⟩ :: c.chain) false ≠ []
  copies : ∀ r, c.statement.repeater = some r → 0 < s.copies r

variable {chain : Chain} {inside : Nat} {lands : Bool} {c : Conversion}
  {once : Option Repeat → Chain → Progress → List Node × Progress}

/-- The text is asked for in a round, and that is not taken back. -/
theorem consumed_copiesFrom (chain : Chain) (implicit : Bool) (count : Nat)
    {each : Chain → Bool → List Conversion}
    (htakes : ∀ copy chain, Takes inside (once copy chain))
    (hnotes : ∀ copy chain, Notes lands (once copy chain))
    (hkeeps : ∀ copy chain, KeepsConsumed (once copy chain))
    (honce : ∀ copy chain p, inside ≤ p.budget → c ∈ each chain p.inserted →
      (once copy chain p).2.consumed = true) {left : Nat} (hleft : left ≤ count)
    {p : Progress} (hp : left * (inside + 1) ≤ p.budget)
    (hc : c ∈ (List.range' (count - left) left).flatMap fun i => each (⟨count,
      i, implicit⟩ :: chain) (landedAt p.inserted lands (i - (count - left)))) :
    (copiesFrom s chain implicit count once left p).2.consumed = true := by
  -- The text may have been asked for in an earlier round, so the induction is
  -- over both cases.
  refine copiesFrom_induction (motive := fun left p run => left ≤ count →
    (p.consumed = true ∨ c ∈ (List.range' (count - left) left).flatMap fun i =>
      each (⟨count, i, implicit⟩ :: chain)
        (landedAt p.inserted lands (i - (count - left)))) →
    run.2.consumed = true) htakes (by simp) ?_ hp hleft (.inr hc)
  intro left p rest hcovered hrest hleft hasked
  have hnext : count - (left + 1) + 1 = count - left := by omega
  rw [List.range'_succ, List.flatMap_cons, hnext, Nat.sub_self, landedAt_zero,
    List.mem_append] at hasked
  rw [consumed_behindRound, inserted_behindRound, roundAt, hnotes,
    Bool.or_eq_true] at hrest
  apply hrest (by omega)
  rcases hasked with hbefore | hfirst | hlater
  · exact .inl (.inl (hkeeps _ _ p hbefore))
  · exact .inl (.inl (honce _ _ p (by omega) hfirst))
  · right
    rw [List.mem_flatMap] at hlater ⊢
    obtain ⟨i, hi, hin⟩ := hlater
    refine ⟨i, hi, ?_⟩
    rw [List.mem_range'_1] at hi
    rwa [landedAt_later _ _ (show 0 < i - (count - (left + 1)) by omega)]

theorem consumed_repeated {each : Chain → Bool → List Conversion}
    (htakes : ∀ copy chain, Takes inside (once copy chain))
    (hnotes : ∀ copy chain, Notes lands (once copy chain))
    (hkeeps : ∀ copy chain, KeepsConsumed (once copy chain))
    (honce : ∀ copy chain p, inside ≤ p.budget → c ∈ each chain p.inserted →
      (once copy chain p).2.consumed = true) (r : Option Repeater)
    {p : Progress} (hp : s.repeatedRounds r inside ≤ p.budget)
    (hc : c ∈ s.inRounds chain r p.inserted lands fun _ => each) :
    (repeated s chain r once p).2.consumed = true := by
  cases r with
  | none => exact honce none chain p hp hc
  | some r =>
      rw [Settings.inRounds, List.range_eq_range', ← Nat.sub_self (s.copies r)]
        at hc
      have hloop := consumed_copiesFrom (s := s) chain r.implicit (s.copies r)
        htakes hnotes hkeeps honce (Nat.le_refl _) hp
        (by simpa only [Nat.sub_self, Nat.sub_zero] using hc)
      simp only [repeated]
      split <;> exact hloop

/-- A copy that is filled asks for the text. -/
theorem consumed_of_fills (hfills : c.Fills s) {p : Progress}
    (hlanded : c.landed = p.inserted) (hp : s.rounds c.statement ≤ p.budget) :
    (statementNodes s c.chain c.statement p).2.consumed = true := by
  have hinserted : p.inserted = false := hlanded.symm.trans hfills.landed
  obtain ⟨r, hr, himplicit⟩ := Statement.isBare_iff.1 c.isBare
  obtain ⟨left, hleft⟩ :=
    Nat.exists_eq_succ_of_ne_zero (Nat.ne_of_gt (hfills.copies r hr))
  rw [s.rounds_eq, hr, Settings.repeatedRounds, hleft, Nat.succ_mul] at hp
  have hround : (roundAt c.chain true (left + 1) (statementOnce s c.statement) 0
      p).1 ≠ [] := by
    rw [roundAt, settled_statementOnce s c.statement _ _ p (by omega),
      hinserted]
    exact hfills.yields _
  have hquiet :
      (roundAt c.chain true (left + 1) (statementOnce s c.statement) 0
        p).2.inserted = false := by
    rw [roundAt, notes_statementOnce, hinserted, hfills.quiet]
    rfl
  have hfirst : (behindRound true
      (roundAt c.chain true (left + 1) (statementOnce s c.statement) 0
        p)).consumed = true := by
    rw [consumed_behindRound, fills, hquiet, List.isEmpty_eq_false_iff.2 hround]
    simp
  rw [statementNodes_eq, hr]
  simp only [repeated, himplicit, hleft, if_true]
  rw [copiesFrom_cons, Nat.succ_eq_add_one, Nat.sub_self]
  dsimp only
  split
  · exact hfirst
  · exact keepsConsumed_copiesFrom (keepsConsumed_statementOnce s c.statement)
      left _ hfirst

mutual

theorem consumed_statementOnce {t : Statement} {chain : Chain}
    (copy : Option Repeat) {p : Progress}
    (hp : s.roundsOf t.children ≤ p.budget)
    (hc : c ∈ conversionsOnce s t chain p.inserted) (hfills : c.Fills s) :
    (statementOnce s t copy chain p).2.consumed = true := by
  match t with
  | .element e children =>
      change s.roundsOf children ≤ p.budget at hp
      have hc' : c ∈ conversionsOf s chain
          ((p.readingOption e.name).readingOption e.value).inserted
          children := by
        rw [Progress.inserted_readingOption, Progress.inserted_readingOption,
          Bool.or_assoc]
        exact hc
      have hbelow := consumed_statementsNodes (by simpa using hp) hc' hfills
      have htag :=
        Progress.consumed_readingAttributes hbelow (e.attributes.getD [])
      simp only [statementOnce, elementNodes]
      split <;> exact htag
  | .group children r => exact consumed_statementsNodes hp hc hfills

theorem consumed_statementNodes {t : Statement} {chain : Chain} {p : Progress}
    (hp : s.rounds t ≤ p.budget) (hc : c ∈ conversions s chain p.inserted t)
    (hfills : c.Fills s) : (statementNodes s chain t p).2.consumed = true := by
  have hself := hp
  have honce : ∀ copy chain p, s.roundsOf t.children ≤ p.budget →
      c ∈ conversionsOnce s t chain p.inserted →
        (statementOnce s t copy chain p).2.consumed = true :=
    fun copy chain p hp hc => consumed_statementOnce copy hp hc hfills
  rw [conversions_eq, List.mem_append] at hc
  rw [s.rounds_eq] at hp
  rcases hc with hc | hc
  · split at hc
    · next hbare =>
        obtain rfl := List.mem_singleton.1 hc
        exact consumed_of_fills hfills rfl hself
    · cases hc
  · rw [statementNodes_eq]
    exact consumed_repeated (takes_statementOnce s t) (notes_statementOnce s t)
      (keepsConsumed_statementOnce s t) honce t.repeater hp hc

/-- If the copies of a bare repeater are filled somewhere, the text is asked
for. -/
theorem consumed_statementsNodes {ts : List Statement} {chain : Chain}
    {p : Progress} (hp : s.roundsOf ts ≤ p.budget)
    (hc : c ∈ conversionsOf s chain p.inserted ts) (hfills : c.Fills s) :
    (statementsNodes s chain ts p).2.consumed = true := by
  match ts with
  | [] => cases hc
  | t :: ts =>
      rw [Settings.roundsOf] at hp
      rw [conversionsOf, List.mem_append] at hc
      rw [statementsNodes_cons]
      rcases hc with hfirst | hrest
      · exact keepsConsumed_statementsNodes s ts chain _
          (consumed_statementNodes (by omega) hfirst hfills)
      · obtain ⟨hbudget, -⟩ := takes_statementNodes s t chain p (by omega)
        refine consumed_statementsNodes (p := (statementNodes s chain t p).2)
          (by omega) ?_ hfills
        rw [notes_statementNodes]
        exact hrest

end

end Asked

/-! ### The copies in the tree -/

section Content

variable {s : Settings} {c : Conversion} {row : List Tag}

theorem infix_content_inRounds {chain : Chain} {r : Option Repeater}
    {landed lands : Bool}
    {each : Option Repeat → Chain → Bool → List Conversion}
    {nodes : Option Repeat → Chain → Bool → List Node}
    (heach : ∀ copy chain before, c ∈ each copy chain before →
      row <:+: Node.content (nodes copy chain before))
    (hc : c ∈ s.inRounds chain r landed lands each) :
    row <:+: Node.content (s.inRounds chain r landed lands nodes) := by
  cases r with
  | none => exact heach none chain landed hc
  | some r =>
      rw [Settings.inRounds, List.mem_flatMap] at hc
      obtain ⟨i, hi, hin⟩ := hc
      obtain ⟨front, behind, hrange⟩ := List.append_of_mem hi
      rw [Settings.inRounds, hrange, List.flatMap_append, List.flatMap_cons,
        Node.content_append, Node.content_append]
      exact (heach _ _ _ hin).trans ⟨_, _, List.append_assoc _ _ _⟩

/-- The tag of an element comes right in front of what is below it, also if that
is put beside it. -/
theorem infix_content_plainElement (chain : Chain) (copy : Option Repeat)
    (e : ElementTokens) (below : List Node) :
    Node.content below <:+:
      Node.content (plainElement s chain copy e below) := by
  have hcontent : ∃ tag, Node.content (plainElement s chain copy e below) =
      tag :: Node.content below := by
    rw [plainElement]
    dsimp only
    split <;>
      simp only [Node.content, Node.preorders_cons, Node.preorder_mk,
        Node.preorders_nil, List.append_nil, List.cons_append, List.nil_append,
        List.map_cons] <;>
      exact ⟨_, rfl⟩
  obtain ⟨tag, hcontent⟩ := hcontent
  rw [hcontent]
  exact (List.suffix_cons tag _).isInfix

mutual

theorem infix_content_settledOnce {t : Statement} {chain : Chain}
    {landed : Bool} (copy : Option Repeat)
    (hc : c ∈ conversionsOnce s t chain landed) :
    Node.content (settledNodes s c.chain c.landed c.statement) <:+:
      Node.content (settledOnce s t copy chain landed) := by
  match t with
  | .element e children =>
      exact (infix_content_settledForest hc).trans
        (infix_content_plainElement chain copy e _)
  | .group children r =>
      rw [settledOnce, Node.content_map_inCopy]
      exact infix_content_settledForest hc

theorem infix_content_settledNodes {t : Statement} {chain : Chain}
    {landed : Bool} (hc : c ∈ conversions s chain landed t) :
    Node.content (settledNodes s c.chain c.landed c.statement) <:+:
      Node.content (settledNodes s chain landed t) := by
  have honce : ∀ copy chain before, c ∈ conversionsOnce s t chain before →
      Node.content (settledNodes s c.chain c.landed c.statement) <:+:
        Node.content (settle s copy (landed || t.onceLands)
          (settledOnce s t copy chain before)) := by
    intro copy chain before hc
    -- A bare repeater in it takes the text, so that nothing is put into the
    -- copy around it.
    rw [onceLands_of_mem_conversionsOnce hc, Bool.or_true, settle_of_landed]
    exact infix_content_settledOnce copy hc
  rw [conversions_eq, List.mem_append] at hc
  rcases hc with hc | hc
  · split at hc
    · obtain rfl := List.mem_singleton.1 hc
      exact List.infix_rfl
    · cases hc
  · rw [settledNodes_eq s chain landed t]
    exact infix_content_inRounds honce hc

/-- The copies of a bare repeater stand in the tree as they were converted. -/
theorem infix_content_settledForest {ts : List Statement} {chain : Chain}
    {landed : Bool} (hc : c ∈ conversionsOf s chain landed ts) :
    Node.content (settledNodes s c.chain c.landed c.statement) <:+:
      Node.content (settledForest s chain landed ts) := by
  match ts with
  | [] => cases hc
  | t :: ts =>
      rw [conversionsOf, List.mem_append] at hc
      rw [settledForest, Node.content_append]
      rcases hc with hfirst | hrest
      · exact (infix_content_settledNodes hfirst).trans
          (List.prefix_append _ _).isInfix
      · exact (infix_content_settledForest hrest).trans
          (List.suffix_append _ _).isInfix

end

end Content

/-! ### The copies -/

section Leaves

variable {s : Settings}

theorem inRounds_ne_nil (hcopies : ∀ r, 0 < s.copies r) {chain : Chain}
    {r : Option Repeater} {landed lands : Bool}
    {nodes : Option Repeat → Chain → Bool → List Node}
    (hnodes : ∀ copy chain before, nodes copy chain before ≠ []) :
    s.inRounds chain r landed lands nodes ≠ [] := by
  cases r with
  | none => exact hnodes none chain landed
  | some r =>
      intro hnil
      exact hnodes
        _ _ _ (List.flatMap_eq_nil_iff.1 hnil 0 (List.mem_range.2 (hcopies r)))

theorem settle_ne_nil (s : Settings) {nodes : List Node} (h : nodes ≠ [])
    (copy : Option Repeat) (landed : Bool) :
    settle s copy landed nodes ≠ [] := by
  rw [settle.eq_def]
  split
  · split
    · exact h
    · exact mt Node.modifyLast_eq_nil_iff.1 h
  · exact h

mutual

theorem settledOnce_ne_nil (hcopies : ∀ r, 0 < s.copies r) {t : Statement}
    (h : t.leaf? ≠ none) (copy : Option Repeat) (chain : Chain)
    (landed : Bool) : settledOnce s t copy chain landed ≠ [] := by
  match t with
  | .element e children =>
      rw [settledOnce, plainElement]
      dsimp only
      split <;> exact List.cons_ne_nil _ _
  | .group children r =>
      rw [settledOnce, Ne, List.map_eq_nil_iff]
      exact settledForest_ne_nil hcopies h chain landed

/-- What has a leaf comes to a node. -/
theorem settledForest_ne_nil (hcopies : ∀ r, 0 < s.copies r)
    {ts : List Statement} (h : Statement.leafOf? ts ≠ none) (chain : Chain)
    (landed : Bool) : settledForest s chain landed ts ≠ [] := by
  match ts with
  | [] => exact absurd rfl h
  | t :: ts =>
      rw [settledForest, Ne, List.append_eq_nil_iff, not_and_or]
      rw [Statement.leafOf?, Ne, Option.or_eq_none_iff, not_and_or] at h
      rcases h with hrest | hfirst
      · exact .inr (settledForest_ne_nil hcopies hrest chain _)
      · left
        rw [settledNodes_eq]
        exact inRounds_ne_nil hcopies fun copy chain before =>
          settle_ne_nil s
            (settledOnce_ne_nil hcopies hfirst copy chain before) copy _

end

end Leaves

section Items

variable {s : Settings} {items : List String}
    (text : s.text = some (.items items))

include text

theorem textAt_items {part : String} {i : Nat}
    (hi : (part, i) ∈ (ReplacementText.items items).parts.zipIdx) :
    s.textAt (some i) = part := by
  rw [List.mem_zipIdx_iff_getElem?] at hi
  simp only [Settings.textAt, text, hi, Option.some_or, Option.getD_some]

theorem copies_pos_of_items (hparts : (ReplacementText.items items).parts ≠ [])
    (r : Repeater) : 0 < s.copies r := by
  cases himplicit : r.implicit with
  | false => exact s.copies_pos himplicit
  | true =>
      simp only [Settings.copies, text, himplicit, if_true]
      exact List.length_pos_iff.2 hparts

/-- The copies of a bare repeater, one for each text. -/
theorem settledNodes_conversion (c : Conversion) :
    settledNodes s c.chain c.landed c.statement =
      (ReplacementText.items items).parts.zipIdx.flatMap fun (part, i) =>
        c.copy s (ReplacementText.items items).parts.length part i := by
  obtain ⟨r, hr, himplicit⟩ := Statement.isBare_iff.1 c.isBare
  have hcount : s.copies r = (ReplacementText.items items).parts.length := by
    simp only [Settings.copies, text, himplicit, if_true]
  rw [settledNodes_eq, hr, Settings.inRounds, hcount, himplicit,
    List.range_eq_range', ← List.zipIdx_map_snd, List.flatMap_map]
  apply List.flatMap_congr
  rintro ⟨part, i⟩ hi
  rw [settle, textAt_items text hi]
  rfl

end Items

/-- Unrolling comes to the settled nodes if the text is put into the copies of
some repeater: then it is not put in once more as a whole. -/
theorem unroll_of_fills (text : s.text = some (.items items))
    {ts : List Statement} (enough : s.roundsOf ts ≤ max s.maxRepeat 1)
    {c : Conversion} (hc : c ∈ conversionsOf s [] false ts)
    (hfills : c.Fills s) :
    unroll s ts = ⟨settledForest s [] false ts,
      (statementsNodes s [] ts
        { budget := max s.maxRepeat 1 }).2.iterations⟩ := by
  have hnodes :=
    settled_statementsNodes s ts [] { budget := max s.maxRepeat 1 } enough
  have hconsumed : (statementsNodes s [] ts
      { budget := max s.maxRepeat 1 }).2.consumed = true :=
    consumed_statementsNodes enough hc hfills
  simp only [unroll, text, hconsumed, if_true, hnodes]

/-- Within the budget each bare repeater makes a copy for each text, and they
stand in the unrolled tree, which at most the text as a whole is put into.  If
no text has landed in front of the repeater and none lands in what it repeats,
which comes to a node, then the deepest last node of each copy ends with its own
text, and nothing is put in once more; otherwise the repeater adds nothing to
its copies. -/
theorem unroll_surfaces {s : Settings} {items : List String}
    (text : s.text = some (.items items)) {ts : List Statement}
    (enough : s.roundsOf ts ≤ max s.maxRepeat 1) :
    (∃ asked : Bool, (unroll s ts).nodes =
      if asked then settledForest s [] false ts
      else placeText s (ReplacementText.items items).whole
        (settledForest s [] false ts)) ∧
    ∀ c ∈ conversionsOf s [] false ts, ∃ copies : List (List Node),
      copies.length = (ReplacementText.items items).parts.length ∧
      settledNodes s c.chain c.landed c.statement = copies.flatten ∧
      Node.content copies.flatten <:+:
        Node.content (settledForest s [] false ts) ∧
      (∀ part i, (part, i) ∈ (ReplacementText.items items).parts.zipIdx →
        copies[i]? = some (if c.landed || c.statement.onceLands
          then c.body s (ReplacementText.items items).parts.length i
          else fillDeepest part
            (c.body s (ReplacementText.items items).parts.length i))) ∧
      (c.landed = false → c.statement.onceLands = false →
        c.statement.leaf? ≠ none →
        (∀ part i, (part, i) ∈ (ReplacementText.items items).parts.zipIdx →
          ∃ copy tag, copies[i]? = some copy ∧ Node.lastTag? copy = some tag ∧
            tag.EndsWith part) ∧
        Node.content copies.flatten <:+: Node.content (unroll s ts).nodes) := by
  constructor
  · have hnodes :=
      settled_statementsNodes s ts [] { budget := max s.maxRepeat 1 } enough
    refine ⟨(statementsNodes s [] ts
      { budget := max s.maxRepeat 1 }).2.consumed, ?_⟩
    simp only [unroll, text, hnodes]
  intro c hc
  have hcopies := settledNodes_conversion text c
  rw [List.flatMap_def] at hcopies
  have hinfix := infix_content_settledForest hc
  rw [hcopies] at hinfix
  have hget : ∀ part i, (part, i) ∈ (ReplacementText.items items).parts.zipIdx →
      ((ReplacementText.items items).parts.zipIdx.map fun (part, i) =>
        c.copy s (ReplacementText.items items).parts.length part i)[i]? =
      some (c.copy s (ReplacementText.items items).parts.length part i) := by
    intro part i hi
    rw [List.mem_zipIdx_iff_getElem?] at hi
    simp [List.getElem?_zipIdx, hi]
  refine ⟨_, by simp, hcopies, hinfix, hget, ?_⟩
  intro hlanded hquiet hleaf
  by_cases hparts : (ReplacementText.items items).parts = []
  · rw [hparts]
    exact ⟨fun _ _ hi => absurd hi List.not_mem_nil, List.nil_infix⟩
  · have hpos := copies_pos_of_items text hparts
    have hfills : c.Fills s := ⟨hlanded, hquiet,
      fun count => settledOnce_ne_nil hpos hleaf _ _ _, fun r _ => hpos r⟩
    rw [unroll_of_fills text enough hc hfills]
    refine ⟨fun part i hi => ?_, hinfix⟩
    have hbody : c.body s (ReplacementText.items items).parts.length i ≠ [] :=
      settledOnce_ne_nil hpos hleaf _ _ _
    obtain ⟨tag, htag, hends⟩ := exists_lastTag?_fillDeepest part hbody
    refine ⟨_, tag, hget part i hi, ?_, hends⟩
    rw [Conversion.copy, hlanded, hquiet]
    exact htag

namespace SurfacingWitness

def settings : Settings := { text := some (.items ["x", "y"]) }

def items : Statement :=
  .element { name := some [⟨.literal "li", 0, 2⟩], repeater := some ⟨1, true⟩ }
    []

def paragraphs : Statement :=
  .element { name := some [⟨.literal "p", 4, 5⟩], repeater := some ⟨1, true⟩ }
    []

/-- A list for each text, of the items for all texts. -/
def lists : Statement :=
  .element { name := some [⟨.literal "ul", 0, 2⟩], repeater := some ⟨1, true⟩ }
    [items]

def item (i : Nat) (value : Option (List Piece)) : Node :=
  ⟨{ name := some "li", value, copy := some ⟨2, i, true⟩ }, []⟩

def paragraph (i : Nat) : Node :=
  ⟨{ name := some "p", copy := some ⟨2, i, true⟩ }, []⟩

def list (i : Nat) (children : List Node) : Node :=
  ⟨{ name := some "ul", copy := some ⟨2, i, true⟩ }, children⟩

/-- The first repeater gets the texts. -/
theorem unroll_surfaces_items :
    settings.roundsOf [items, paragraphs] ≤ max settings.maxRepeat 1 ∧
      ∃ copies : List (List Node), copies.length = 2 ∧
        (∃ copy tag, copies[0]? = some copy ∧ Node.lastTag? copy = some tag ∧
          tag.EndsWith "x") ∧
        (∃ copy tag, copies[1]? = some copy ∧ Node.lastTag? copy = some tag ∧
          tag.EndsWith "y") ∧
        Node.content copies.flatten <:+:
          Node.content (unroll settings [items, paragraphs]).nodes := by
  have hparts : (ReplacementText.items ["x", "y"]).parts = ["x", "y"] := by
    decide
  have henough : settings.roundsOf [items, paragraphs] ≤
      max settings.maxRepeat 1 := by
    decide
  have htext : settings.text = some (.items ["x", "y"]) := rfl
  obtain ⟨-, hall⟩ := unroll_surfaces htext henough
  obtain ⟨copies, hlength, -, -, -, hends⟩ :=
    hall ⟨[], items, false, rfl⟩ List.mem_cons_self
  obtain ⟨htexts, hcontent⟩ := hends rfl rfl (by simp [items, Statement.leaf?])
  rw [hparts] at hlength htexts
  exact ⟨henough, copies, hlength, htexts "x" 0 (by decide),
    htexts "y" 1 (by decide), hcontent⟩

/-- A second repeater gets no texts, and neither does one around the first. -/
theorem unsurfaced :
    ((tokenize "li*+p*" >>= Statement.parse false) = .ok [items, paragraphs] ∧
      settings.roundsOf [items, paragraphs] ≤ settings.maxRepeat ∧
      paragraphs.isBare = true ∧ paragraphs.onceLands = false ∧
      (unroll settings [items, paragraphs]).nodes =
        [item 0 (some [.text "x"]), item 1 (some [.text "y"]), paragraph 0,
          paragraph 1] ∧
      ¬ (paragraph 0).tag.EndsWith "x") ∧
    settings.roundsOf [lists] ≤ settings.maxRepeat ∧ lists.isBare = true ∧
      Statement.anyPlace [lists] = false ∧
      (unroll settings [lists]).nodes =
        [list 0 [item 0 (some [.text "x"]), item 1 (some [.text "y"])],
          list 1 [item 0 none, item 1 none]] ∧
      ¬ (item 1 (some [.text "y"])).tag.EndsWith "x" := by
  have hends : ¬ (item 1 (some [.text "y"])).tag.EndsWith "x" := by
    rintro ⟨front, last, hvalue⟩
    have hlast := congrArg List.getLast? (Option.some.inj hvalue)
    rw [List.getLast?_concat, List.getLast?_singleton] at hlast
    have htext :=
      congrArg String.toList (Piece.text.inj (Option.some.inj hlast))
    rw [String.toList_append] at htext
    have hchar := congrArg List.getLast? htext
    rw [List.getLast?_append_of_ne_nil _ (by decide)] at hchar
    revert hchar
    decide
  refine ⟨⟨?_, by decide, rfl, rfl, by cbv, ?_⟩, by decide, rfl, rfl,
    by cbv, hends⟩
  · cbv
  · rintro ⟨front, last, hvalue⟩
    cases hvalue

end SurfacingWitness

end Unrolling

end Scaffold

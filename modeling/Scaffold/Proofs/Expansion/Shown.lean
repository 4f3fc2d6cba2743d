import Mathlib
import Scaffold.Expansion
import Scaffold.Proofs.Snippet.Outcome
import Scaffold.Proofs.Unrolling.Written
/-!
No node of a final tree is one that the writers would drop with all that is
below it: each has a name, or is a text.  Unrolling leaves only tags of which
something is written, snippets put such tags in the place of others, and the
last pass gives a name to all that have attributes before anything else looks at
them.  Main statement: `tree_shown`.
-/
namespace Scaffold

/-- A tag as the last pass leaves it: an element with a name or a text alone,
and its copy is one of those counted. -/
structure Tag.IsShown (t : Tag) : Prop where
  part : t.name.isSome = true ∨ t.value.isSome = true ∧ t.attributes = none
  copy_lt : ∀ r ∈ t.copy, r.value < r.count

theorem Tag.IsShown.mapAttributes {t : Tag} (h : t.IsShown)
    (f : List Attribute → List Attribute) :
    ({ t with attributes := t.attributes.map f } : Tag).IsShown :=
  ⟨by simpa using h.part, h.copy_lt⟩

namespace Snippet

/-- What was written about a node is added to a top node of its snippet. -/
theorem isWritten_overlay (reverse : Bool) {own : Tag} (hown : own.IsWritten)
    {n : Node} (h : n.tag.IsWritten) :
    (overlay reverse own n).tag.IsWritten := by
  constructor
  · rcases h.part with hname | hattributes | hvalue
    · exact .inl hname
    · refine .inr (.inl ?_)
      rw [overlay]
      dsimp only
      split
      · exact hattributes
      · rfl
    · refine .inr (.inr ?_)
      rw [overlay, Option.isSome_or, hvalue, Bool.or_true]
  · exact (hown.inCopy h.copy_lt).copy_lt

/-- Resolving snippets leaves only tags of which something is written. -/
theorem allTags_resolveNodes (c : Config) (stack : Stack) {nodes : List Node}
    (h : Node.AllTags Tag.IsWritten nodes) :
    Node.AllTags Tag.IsWritten (resolveNodes c stack nodes).1 := by
  induction stack, nodes using resolution_induction c with
  | nil stack =>
      rw [resolveNodes]
      exact Node.allTags_nil
  | cons stack tag children rest expansion below behind =>
      obtain ⟨htag, hchildren, hrest⟩ := Node.allTags_cons.1 h
      have hbelow := below hchildren
      rw [Machine.resolveNodes_cons]
      refine Node.allTags_append.2 ⟨?_, behind hrest⟩
      have hanswer := answers_resolveTag c stack tag
      generalize (resolveTag c stack tag).1 = outcome at hanswer ⊢
      cases hanswer with
      | unknown | cyclic | malformed =>
          exact Node.allTags_cons.2 ⟨htag, hbelow, Node.allTags_nil⟩
      | @resolved name body parsed hname hbody hidle hread =>
          have hparsed := Unrolling.allTags_ofSource? _ hread
          have hnodes :=
            expansion name body parsed hname hbody hidle hread hparsed
          have htop := hnodes.map (f := overlay c.options.reverseAttributes tag)
            (fun _ => rfl)
            fun n hn => isWritten_overlay c.options.reverseAttributes htag hn
          exact allTags_graft htop hbelow

end Snippet

namespace Node

variable (c : Config)

/-- From the moment that an element has its name, it is shown. -/
theorem isShown_nameImplicitly (above : List Frame) {t : Tag}
    (h : t.IsWritten) : (nameImplicitly c above t).IsShown := by
  refine ⟨?_, ?_⟩
  · rw [nameImplicitly]
    cases hname : t.name with
    | some name => exact .inl (by simp [hname])
    | none =>
        cases hattributes : t.attributes with
        | some attributes => exact .inl (by simp)
        | none =>
            have hvalue : t.value.isSome = true := by
              simpa [hname, hattributes] using h.part
            exact .inr (by simpa [hattributes] using hvalue)
  · rw [nameImplicitly]
    split <;> exact h.copy_lt

/-- Placeholder text is a text alone, or gets a name again. -/
theorem isShown_fillLorem {σ : Type} [Random.Source σ] (above : List Frame)
    {t : Tag} (h : t.IsShown) (s : σ) : (fillLorem c above t s).1.IsShown := by
  rw [fillLorem]
  split
  · exact h
  · dsimp only
    split
    · exact ⟨.inl rfl, h.copy_lt⟩
    · exact ⟨.inr ⟨rfl, rfl⟩, h.copy_lt⟩

theorem isShown_dropSelect {t : Tag} (h : t.IsShown) (hasChildren : Bool) :
    (dropSelect t hasChildren).IsShown := by
  rw [dropSelect]
  split
  · exact h.mapAttributes _
  · exact h

theorem isShown_withClasses {t : Tag} (h : t.IsShown) (names : List String) :
    (Bem.withClasses t names).IsShown := by
  rw [Bem.withClasses]
  split
  · exact h
  · exact h.mapAttributes _

theorem isShown_expandClasses (above : List Frame) {t : Tag} (h : t.IsShown) :
    (expandClasses c above t).1.IsShown := by
  rw [expandClasses]
  split
  · exact isShown_withClasses (isShown_withClasses h _) _
  · exact h

section Inputs

variable {P : Tag → Prop} {f : Tag → Tag}

mutual

/-- The first input is changed, and all else stays. -/
theorem AllTags.modifyInput (hf : ∀ t, P t → P (f t)) {n m : Node}
    (h : AllTags P [n]) (hm : modifyInput f n = some m) : AllTags P [m] := by
  obtain ⟨tag, children⟩ := n
  obtain ⟨htag, hchildren, -⟩ := allTags_cons.1 h
  rw [Node.modifyInput] at hm
  split at hm
  · cases hm
    exact allTags_cons.2 ⟨hf tag htag, hchildren, allTags_nil⟩
  · obtain ⟨below, hbelow, rfl⟩ := Option.map_eq_some_iff.1 hm
    exact allTags_cons.2 ⟨htag, hchildren.modifyFirstInput hf hbelow,
      allTags_nil⟩

theorem AllTags.modifyFirstInput (hf : ∀ t, P t → P (f t)) {ns ms : List Node}
    (h : AllTags P ns) (hms : modifyFirstInput f ns = some ms) :
    AllTags P ms := by
  match ns with
  | [] => cases hms
  | n :: ns =>
      obtain ⟨hn, hns⟩ := allTags_cons_iff.1 h
      rw [Node.modifyFirstInput] at hms
      split at hms
      · next m hm =>
          cases hms
          exact allTags_cons_iff.2 ⟨hn.modifyInput hf hm, hns⟩
      · obtain ⟨more, hmore, rfl⟩ := Option.map_eq_some_iff.1 hms
        exact allTags_cons_iff.2 ⟨hn, hns.modifyFirstInput hf hmore⟩

end

end Inputs

/-- A label keeps its tag and its inputs. -/
theorem shown_relabel {t : Tag} (h : t.IsShown) {children : List Node}
    (hchildren : AllTags Tag.IsWritten children) :
    (relabel t children).1.IsShown ∧
    AllTags Tag.IsWritten (relabel t children).2 := by
  rw [relabel]
  split
  · split
    · next below hbelow =>
        have hinputs :=
          hchildren.modifyFirstInput (fun _ ht => ht.mapAttributes _) hbelow
        exact ⟨h.mapAttributes _, hinputs⟩
    · exact ⟨h, hchildren⟩
  · exact ⟨h, hchildren⟩

section Refining

variable {σ : Type} [Random.Source σ]

mutual

theorem shown_refineNode (above : List Frame) {n : Node}
    (h : AllTags Tag.IsWritten [n]) (s : σ) :
    AllTags Tag.IsShown [(refineNode c above n s).1] := by
  match n with
  | ⟨tag, children⟩ =>
      obtain ⟨htag, hchildren, -⟩ := allTags_cons.1 h
      have hnamed := (isShown_nameImplicitly c above htag).mapAttributes
        (Attribute.merge c.options.reverseAttributes)
      have hfilled := isShown_fillLorem c above hnamed s
      have hselected : ∀ t : Tag, t.IsShown →
          (if c.dialect = .xsl then dropSelect t (!children.isEmpty)
            else t).IsShown := by
        intro t ht
        split
        · exact isShown_dropSelect ht _
        · exact ht
      obtain ⟨hlabelled, hbelow⟩ :=
        shown_relabel (hselected _ hfilled) hchildren
      rw [refineNode]
      exact allTags_cons.2
        ⟨isShown_expandClasses c above hlabelled, shown_refineNodes _ hbelow _,
          allTags_nil⟩
termination_by 2 * size n + 1
decreasing_by
  simp [size]
  omega

theorem shown_refineNodes (above : List Frame) {ns : List Node}
    (h : AllTags Tag.IsWritten ns) (s : σ) :
    AllTags Tag.IsShown (refineNodes c above ns s).1 := by
  match ns with
  | [] =>
      rw [refineNodes]
      exact allTags_nil
  | n :: ns =>
      obtain ⟨hn, hns⟩ := allTags_cons_iff.1 h
      rw [refineNodes]
      exact allTags_cons_iff.2 ⟨shown_refineNode above hn s,
        shown_refineNodes above hns _⟩
termination_by 2 * sizes ns + 2
decreasing_by
  · simp only [sizes]
    omega
  · simp [sizes]
    exact size_pos _

end

end Refining

end Node

namespace Expansion

/-- Whatever the source and the configuration are, every node of the final tree
has a name, or else a text and no attributes; and every copy has its number
among those counted. -/
theorem tree_shown {c : Config} {source : String} {e : Expansion (List Node)}
    (h : tree c source = .ok e) :
    ∀ t ∈ Node.preorders e.result,
      (t.name.isSome = true ∨ t.value.isSome = true ∧ t.attributes = none) ∧
        ∀ r ∈ t.copy, r.value < r.count := by
  rw [tree, resolve] at h
  split at h
  · cases h
  · next resolved hresolved =>
      cases h
      split at hresolved
      · cases hresolved
      · next unrolled hread =>
          cases hresolved
          have hwritten :=
            Snippet.allTags_resolveNodes c []
              (Unrolling.allTags_ofSource? _ hread)
          intro t ht
          have hshown : t.IsShown := Node.shown_refineNodes c [] hwritten _ t ht
          exact ⟨hshown.part, hshown.copy_lt⟩

namespace ShownWitness

def config : Config := { snippets := {}, text := some (.items ["one", "two"]) }

def item (value : Nat) (text : String) : Node :=
  ⟨{ name := some "li", value := some [.text text],
     copy := some ⟨2, value, true⟩ }, []⟩

theorem refineNode_item {σ : Type} [Random.Source σ] (value : Nat)
    (text : String) (s : σ) :
    Node.refineNode config [] (item value text) s = (item value text, s) := by
  have hlorem : Lorem.Request.ofName? "li" = none := by decide
  rw [item, Node.refineNode]
  simp [Node.nameImplicitly, Node.mergeAttributes, Node.fillLorem, hlorem,
    Node.relabel, Node.expandClasses, Node.refineNodes, config]

theorem tree_items :
    tree config "li*" = .ok ⟨[item 0 "one", item 1 "two"], [], 2⟩ := by
  have hread : Node.ofSource? config.options.jsx (.ofConfig config) "li*" =
      .ok ⟨[item 0 "one", item 1 "two"], 2⟩ := by
    rw [config, item, item]
    cbv
  have hresolved : Snippet.resolveNodes config [] [item 0 "one", item 1 "two"] =
      ([item 0 "one", item 1 "two"], {}) := by
    rw [item, item, Snippet.Machine.resolveNodes_cons,
      Snippet.Machine.resolveNodes_cons, Snippet.resolveTag_of_isOwn rfl,
      Snippet.resolveTag_of_isOwn rfl, Snippet.resolveNodes]
    rfl
  rw [tree, resolve, hread]
  simp only [hresolved, Node.refine, Node.refineNodes, refineNode_item]

/-- The second item is named, and its number is below two. -/
theorem tree_shown_second_item :
    tree config "li*" = .ok ⟨[item 0 "one", item 1 "two"], [], 2⟩ ∧
      (item 1 "two").tag ∈ Node.preorders [item 0 "one", item 1 "two"] ∧
      ((item 1 "two").tag.name.isSome = true ∨
        (item 1 "two").tag.value.isSome = true ∧
          (item 1 "two").tag.attributes = none) ∧
      (item 1 "two").tag.copy = some ⟨2, 1, true⟩ ∧ 1 < 2 := by
  have hmem : (item 1 "two").tag ∈
      Node.preorders [item 0 "one", item 1 "two"] := by
    simp [item]
  obtain ⟨hpart, hcopy⟩ := tree_shown tree_items _ hmem
  exact ⟨tree_items, hmem, hpart, rfl, hcopy ⟨2, 1, true⟩ rfl⟩

end ShownWitness

end Expansion

end Scaffold

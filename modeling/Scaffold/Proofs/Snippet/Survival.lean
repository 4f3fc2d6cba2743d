import Mathlib
import Scaffold.Proofs.Snippet.Outcome
/-!
What becomes of an abbreviation's own elements when its snippets are resolved.
What was written below the name of a snippet is grafted behind the snippet's
nodes, so it keeps its tags and its place, unless the snippet comes to no nodes
at all: then there is nothing to graft onto, and all that was below is dropped.
Main statement: `own_survive_resolution`.
-/
namespace Scaffold.Snippet

mutual

/-- The own tags of a node and of all below it, but for those below a node whose
snippet comes to nothing. -/
def survivorsOf (c : Config) (stack : Stack) : Node → List Tag
  | ⟨tag, children⟩ =>
    (if isOwn c tag then [tag] else []) ++
      match (resolveTag c stack tag).1 with
      | .resolved [] => []
      | _ => survivors c stack children

/-- The own tags in a forest, but for those below a node whose snippet comes to
nothing. -/
def survivors (c : Config) (stack : Stack) : List Node → List Tag
  | [] => []
  | n :: ns => survivorsOf c stack n ++ survivors c stack ns

end

def ownTags (c : Config) (nodes : List Node) : List Tag :=
  (Node.preorders nodes).filter (isOwn c)

/-- The snippet of a name comes to nothing within some nested expansions: all
that its body stands for are names of such snippets. -/
def IsHollow (c : Config) : Nat → String → Prop
  | 0, _ => False
  | depth + 1, name => ∃ body parsed, c.snippets.get? name = some body ∧
      readBody c body = .ok parsed ∧
      ∀ n ∈ parsed.nodes, ∃ inner, n.tag.name = some inner ∧
        IsHollow c depth inner

theorem IsHollow.succ {c : Config} {depth : Nat} {name : String}
    (h : IsHollow c depth name) : IsHollow c (depth + 1) name := by
  induction depth generalizing name with
  | zero => exact h.elim
  | succ depth ih =>
      obtain ⟨body, parsed, hbody, hread, hnodes⟩ := h
      refine ⟨body, parsed, hbody, hread, ?_⟩
      intro n hn
      obtain ⟨inner, hname, hinner⟩ := hnodes n hn
      exact ⟨inner, hname, ih hinner⟩

theorem IsHollow.mono {c : Config} {depth depth' : Nat} (hle : depth ≤ depth')
    {name : String} (h : IsHollow c depth name) : IsHollow c depth' name := by
  induction hle with
  | refl => exact h
  | step _ ih => exact ih.succ

/-- A snippet that comes to nothing is hollow. -/
theorem exists_isHollow_of_resolveNodes (c : Config) (stack : Stack)
    (nodes : List Node) (h : (resolveNodes c stack nodes).1 = []) :
    ∃ depth, ∀ n ∈ nodes, ∃ name, n.tag.name = some name ∧
    IsHollow c depth name := by
  induction stack, nodes using resolution_induction c with
  | nil stack => exact ⟨0, by simp⟩
  | cons stack tag children rest expansion _ behind =>
      rw [resolveNodes_eq_nil_iff, List.forall_mem_cons,
        ← resolveNodes_eq_nil_iff] at h
      obtain ⟨hfirst, hrest⟩ := h
      obtain ⟨depth, hdepth⟩ := behind hrest
      have hanswer := answers_resolveTag c stack tag
      rw [hfirst] at hanswer
      generalize hnil : Resolution.resolved [] = outcome at hanswer
      cases hanswer with
      | unknown | cyclic | malformed => cases hnil
      | @resolved name body parsed hname hbody hidle hread =>
          have hempty : (resolveNodes c (name :: stack) parsed.nodes).1 = [] :=
            List.map_eq_nil_iff.1 (Resolution.resolved.inj hnil).symm
          obtain ⟨inner, hinner⟩ :=
            expansion name body parsed hname hbody hidle hread hempty
          refine ⟨max (inner + 1) depth, List.forall_mem_cons.2 ⟨?_, ?_⟩⟩
          · have hhollow : IsHollow c (inner + 1) name :=
              ⟨body, parsed, hbody, hread, hinner⟩
            exact ⟨name, hname, hhollow.mono (Nat.le_max_left ..)⟩
          · intro n hn
            obtain ⟨name, hname, hhollow⟩ := hdepth n hn
            exact ⟨name, hname, hhollow.mono (Nat.le_max_right ..)⟩

/-- A hollow snippet comes to nothing, unless one that is as hollow is being
expanded around it: then no name or body on the stack is its own, nor one within
it. -/
theorem resolveTag_of_isHollow {c : Config} {depth : Nat} {name : String}
    (h : IsHollow c depth name) {stack : Stack}
    (hstack : ∀ key ∈ stack, ¬ IsHollow c depth key) {t : Tag}
    (hname : t.name = some name) : (resolveTag c stack t).1 = .resolved [] := by
  induction depth generalizing name stack t with
  | zero => exact h.elim
  | succ depth ih =>
      have hless : ∀ key ∈ stack, ¬ IsHollow c depth key :=
        fun key hkey hhollow => hstack key hkey hhollow.succ
      by_cases hearly : IsHollow c depth name
      · exact ih hearly hless hname
      · obtain ⟨body, parsed, hbody, hread, hnodes⟩ := h
        have hidle : c.snippets.isActive stack name body = false := by
          rw [Registry.isActive, List.any_eq_false]
          intro key hkey hsame
          apply hstack key hkey
          rw [Bool.or_eq_true, beq_iff_eq, beq_iff_eq] at hsame
          rcases hsame with rfl | hkeyBody
          · exact ⟨body, parsed, hbody, hread, hnodes⟩
          · exact ⟨body, parsed, hkeyBody, hread, hnodes⟩
        have hempty : (resolveNodes c (name :: stack) parsed.nodes).1 = [] := by
          rw [resolveNodes_eq_nil_iff]
          intro n hn
          obtain ⟨inner, hinner, hhollow⟩ := hnodes n hn
          exact ih hhollow (List.forall_mem_cons.2 ⟨hearly, hless⟩) hinner
        rw [resolveTag_of_read hname hbody hidle hread, hempty, List.map_nil]

/-- A snippet comes to nothing exactly if it is hollow. -/
theorem resolveTag_eq_resolved_nil_iff (c : Config) (t : Tag) :
    (resolveTag c [] t).1 = .resolved [] ↔
      ∃ depth name, t.name = some name ∧ IsHollow c depth name := by
  constructor
  · intro h
    have hempty : (resolveNodes c [] [⟨t, []⟩]).1 = [] := by
      rw [resolveNodes_eq_nil_iff]
      simpa using h
    obtain ⟨depth, hdepth⟩ :=
      exists_isHollow_of_resolveNodes c [] [⟨t, []⟩] hempty
    exact ⟨depth, hdepth ⟨t, []⟩ (by simp)⟩
  · rintro ⟨depth, name, hname, hhollow⟩
    exact resolveTag_of_isHollow hhollow (by simp) hname

/-- What survives of a node stands in its place, in document order. -/
theorem survivorsOf_sublist (c : Config) (stack : Stack) (tag : Tag)
    {children : List Node}
    (hchildren : (survivors c stack children).Sublist
      (Node.preorders (resolveNodes c stack children).1)) :
    (survivorsOf c stack ⟨tag, children⟩).Sublist (Node.preorders
      ((resolveTag c stack tag).1.place tag
        (resolveNodes c stack children).1)) := by
  have hkept : (survivors c stack children).Sublist
      (tag :: Node.preorders (resolveNodes c stack children).1) :=
        hchildren.cons tag
  have hanswer := answers_resolveTag c stack tag
  rw [survivorsOf]
  generalize (resolveTag c stack tag).1 = outcome at hanswer ⊢
  cases hanswer with
  | unknown hown => simpa [hown, Resolution.place] using hchildren
  | cyclic hname hbody =>
      simpa [isOwn_eq_false hname hbody, Resolution.place] using hkept
  | malformed hname hbody =>
      simpa [isOwn_eq_false hname hbody, Resolution.place] using hkept
  | resolved hname hbody =>
      rw [isOwn_eq_false hname hbody, Resolution.place]
      generalize List.map _ _ = nodes
      cases nodes with
      | nil => exact List.nil_sublist _
      | cons n ns =>
          rw [preorders_graft (List.cons_ne_nil n ns)]
          exact hchildren.trans (List.sublist_append_right ..)

/-- Whatever the snippets around them are, the survivors all occur in the
resolved tree, in the same order. -/
theorem survivors_sublist (c : Config) (stack : Stack) (nodes : List Node) :
    (survivors c stack nodes).Sublist
      (Node.preorders (resolveNodes c stack nodes).1) := by
  induction stack, nodes using resolution_induction c with
  | nil stack => exact List.nil_sublist _
  | cons stack tag children rest _ below behind =>
      rw [survivors, Machine.resolveNodes_cons, Node.preorders_append]
      exact (survivorsOf_sublist c stack tag below).append behind

/-- If no snippet comes to nothing, all own tags survive. -/
theorem survivors_eq_ownTags {c : Config} {stack : Stack}
    (hfull : ∀ t, (resolveTag c stack t).1 ≠ .resolved []) (nodes : List Node) :
    survivors c stack nodes = ownTags c nodes := by
  induction stack, nodes using resolution_induction c with
  | nil stack => rfl
  | cons stack tag children rest _ below behind =>
      have hbelow : (match (resolveTag c stack tag).1 with
          | .resolved [] => []
          | _ => survivors c stack children) = ownTags c children := by
        split
        · next hnil => exact absurd hnil (hfull tag)
        · exact below hfull
      rw [survivors, survivorsOf, hbelow, behind hfull, ownTags, ownTags,
        ownTags, Node.preorders_cons, Node.preorder_mk, List.filter_append,
        List.filter_cons]
      split <;> rfl

/-- Resolving snippets keeps every own tag of every tree, unchanged and in
document order, except those below a node whose snippet comes to nothing; these
snippets are the hollow ones.  So no own tag of any tree is lost exactly if the
registry has no hollow snippet. -/
theorem own_survive_resolution (c : Config) :
    (∀ stack nodes,
      (survivors c stack nodes).Sublist
        (Node.preorders (resolveNodes c stack nodes).1)) ∧
    (∀ t, (resolveTag c [] t).1 = .resolved [] ↔
      ∃ depth name, t.name = some name ∧ IsHollow c depth name) ∧
    ((∀ nodes,
      (ownTags c nodes).Sublist (Node.preorders (resolveNodes c [] nodes).1)) ↔
      ∀ depth name, ¬ IsHollow c depth name) := by
  refine ⟨survivors_sublist c, resolveTag_eq_resolved_nil_iff c, ?_, ?_⟩
  · intro hkeeps depth name hhollow
    have hgone : (resolveTag c [] { name := some name }).1 = .resolved [] :=
      resolveTag_of_isHollow hhollow (by simp) rfl
    have hempty :
        (resolveNodes c [] [⟨{ name := some name }, [⟨{}, []⟩]⟩]).1 = [] := by
      rw [resolveNodes_eq_nil_iff]
      simpa using hgone
    have hlost := hkeeps [⟨{ name := some name }, [⟨{}, []⟩]⟩]
    rw [hempty, Node.preorders_nil, List.sublist_nil, ownTags,
      List.filter_eq_nil_iff] at hlost
    exact hlost {} (by simp) rfl
  · intro hfull nodes
    have hsome : ∀ t, (resolveTag c [] t).1 ≠ .resolved [] := by
      intro t hnil
      obtain ⟨depth, name, -, hhollow⟩ :=
        (resolveTag_eq_resolved_nil_iff c t).1 hnil
      exact hfull depth name hhollow
    rw [← survivors_eq_ownTags hsome]
    exact survivors_sublist c [] nodes

namespace SurvivalWitness

/-- One snippet, without any nodes. -/
def config : Config := { snippets := { entries := [("gap", "")] } }

/-- A paragraph below the snippet. -/
def nodes : List Node :=
  [⟨{ name := some "gap" }, [⟨{ name := some "p" }, []⟩]⟩]

/-- The paragraph below the snippet is the abbreviation's own, and is lost. -/
theorem own_lost_below_hollow :
    Node.ofSource? false (.ofConfig config) "gap>p" = .ok ⟨nodes, 0⟩ ∧
      ownTags config nodes = [{ name := some "p" }] ∧
      ¬ (ownTags config nodes).Sublist
        (Node.preorders (resolveNodes config [] nodes).1) := by
  have hread : Node.ofSource? false (.ofConfig config) "gap>p" =
      .ok ⟨nodes, 0⟩ := by
    rw [config, nodes]
    cbv
  have hown : ownTags config nodes = [{ name := some "p" }] := by
    simp [ownTags, isOwn, config, nodes, Registry.get?]
  have hgap : IsHollow config 1 "gap" :=
    ⟨"", ⟨[], 0⟩, rfl, by rw [config]; cbv, by simp⟩
  have hgone : (resolveTag config [] { name := some "gap" }).1 = .resolved [] :=
    resolveTag_of_isHollow hgap (by simp) rfl
  have hempty : (resolveNodes config [] nodes).1 = [] := by
    rw [resolveNodes_eq_nil_iff]
    simpa [nodes] using hgone
  refine ⟨hread, hown, ?_⟩
  rw [hown, hempty, Node.preorders_nil, List.sublist_nil]
  simp

end SurvivalWitness

end Scaffold.Snippet

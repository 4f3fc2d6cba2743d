import Scaffold.Snippet.Resolution
/-!
The tags of a tree in document order, each in front of those below it, and
conditions that all of them pass.  Nodes that are grafted onto the deepest last
node of some others come behind all tags of these, so grafting appends; it loses
what is grafted only if there is no node to graft it onto.
-/
namespace Scaffold

namespace Node

mutual

/-- The tags of a node and of all nodes below it, in document order. -/
def preorder : Node → List Tag
  | ⟨tag, children⟩ => tag :: preorders children

def preorders : List Node → List Tag
  | [] => []
  | n :: ns => preorder n ++ preorders ns

end

/-- The names in a forest, in document order. -/
def names (ns : List Node) : List String := (preorders ns).filterMap Tag.name

@[simp]
theorem preorder_mk (tag : Tag) (children : List Node) :
    preorder ⟨tag, children⟩ = tag :: preorders children := by
  rw [preorder]

@[simp]
theorem preorders_nil : preorders [] = [] := by
  rw [preorders]

@[simp]
theorem preorders_cons (n : Node) (ns : List Node) :
    preorders (n :: ns) = n.preorder ++ preorders ns := by
  rw [preorders]

@[simp]
theorem preorders_append (ns ms : List Node) :
    preorders (ns ++ ms) = preorders ns ++ preorders ms := by
  induction ns with
  | nil => rw [List.nil_append, preorders_nil, List.nil_append]
  | cons n ns ih =>
      rw [List.cons_append, preorders_cons, preorders_cons, ih,
        List.append_assoc]

theorem names_append (ns ms : List Node) :
    names (ns ++ ms) = names ns ++ names ms := by
  rw [names, preorders_append, List.filterMap_append]
  rfl

theorem mem_names_cons {tag : Tag} {children rest : List Node} {name : String} :
    name ∈ names (⟨tag, children⟩ :: rest) ↔
      tag.name = some name ∨ name ∈ names children ∨ name ∈ names rest := by
  simp only [names, preorders_cons, preorder_mk, List.filterMap_append,
    List.mem_append, List.mem_filterMap, List.mem_cons]
  constructor
  · rintro (⟨t, rfl | ht, hname⟩ | hrest)
    · exact .inl hname
    · exact .inr (.inl ⟨t, ht, hname⟩)
    · exact .inr (.inr hrest)
  · rintro (hname | ⟨t, ht, hname⟩ | hrest)
    · exact .inl ⟨tag, .inl rfl, hname⟩
    · exact .inl ⟨t, .inr ht, hname⟩
    · exact .inr hrest

mutual

/-- What comes below the deepest last node of a node comes behind all of its
tags. -/
theorem preorder_modifyDeepest (below : List Node) (n : Node) :
    (modifyDeepest (fun n => { n with children := n.children ++ below })
      n).preorder =
      n.preorder ++ preorders below := by
  match n with
  | ⟨tag, []⟩ =>
      rw [modifyDeepest, List.nil_append, preorder_mk, preorder_mk,
        preorders_nil]
      rfl
  | ⟨tag, c :: cs⟩ =>
      rw [modifyDeepest, preorder_mk, preorder_mk, List.cons_append,
        preorders_modifyLast below (by simp)]

theorem preorders_modifyLast (below : List Node) {ns : List Node}
    (hns : ns ≠ []) :
    preorders
      (modifyLast (fun n => { n with children := n.children ++ below }) ns) =
      preorders ns ++ preorders below := by
  match ns with
  | [] => exact absurd rfl hns
  | [c] =>
      rw [modifyLast, preorders_cons, preorders_cons, preorders_nil,
        List.append_nil, List.append_nil, preorder_modifyDeepest below c]
  | c :: d :: ds =>
      rw [modifyLast, preorders_cons, preorders_cons c, List.append_assoc,
        preorders_modifyLast below (by simp)]

end

/-- All tags of nodes, and of all nodes below them, pass. -/
def AllTags (P : Tag → Prop) (ns : List Node) : Prop := ∀ t ∈ preorders ns, P t

section

variable {P : Tag → Prop}

@[simp]
theorem allTags_nil : AllTags P [] := by simp [AllTags]

@[simp]
theorem allTags_cons {n : Node} {ns : List Node} :
    AllTags P (n :: ns) ↔ P n.tag ∧ AllTags P n.children ∧ AllTags P ns := by
  obtain ⟨tag, children⟩ := n
  simp only [AllTags, preorders_cons, preorder_mk, List.forall_mem_append,
    List.forall_mem_cons, and_assoc]

@[simp]
theorem allTags_append {ns ms : List Node} :
    AllTags P (ns ++ ms) ↔ AllTags P ns ∧ AllTags P ms := by
  simp only [AllTags, preorders_append, List.forall_mem_append]

theorem allTags_cons_iff {n : Node} {ns : List Node} :
    AllTags P (n :: ns) ↔ AllTags P [n] ∧ AllTags P ns := by
  rw [← allTags_append, List.singleton_append]

/-- Other tags of the top nodes. -/
theorem AllTags.map {ns : List Node} (h : AllTags P ns) {f : Node → Node}
    (hchildren : ∀ n, (f n).children = n.children)
    (hf : ∀ n, P n.tag → P (f n).tag) : AllTags P (ns.map f) := by
  induction ns with
  | nil => exact h
  | cons n ns ih =>
      obtain ⟨htag, hbelow, hrest⟩ := allTags_cons.1 h
      exact allTags_cons.2 ⟨hf n htag, hchildren n ▸ hbelow, ih hrest⟩

mutual

theorem AllTags.modifyDeepest {f : Node → Node}
    (hf : ∀ t, P t → AllTags P [f ⟨t, []⟩]) {n : Node} (h : AllTags P [n]) :
    AllTags P [modifyDeepest f n] := by
  match n with
  | ⟨tag, []⟩ =>
      rw [Node.modifyDeepest]
      exact hf tag (allTags_cons.1 h).1
  | ⟨tag, c :: cs⟩ =>
      rw [Node.modifyDeepest]
      obtain ⟨htag, hchildren, -⟩ := allTags_cons.1 h
      exact allTags_cons.2 ⟨htag, hchildren.modifyLast hf, allTags_nil⟩

theorem AllTags.modifyLast {f : Node → Node}
    (hf : ∀ t, P t → AllTags P [f ⟨t, []⟩]) {ns : List Node}
    (h : AllTags P ns) : AllTags P (modifyLast f ns) := by
  match ns with
  | [] => exact h
  | [c] => exact h.modifyDeepest hf
  | c :: d :: ds =>
      rw [Node.modifyLast]
      obtain ⟨hfirst, hrest⟩ := allTags_cons_iff.1 h
      exact allTags_cons_iff.2 ⟨hfirst, hrest.modifyLast hf⟩

end

end

end Node

namespace Snippet

/-- Grafting onto some nodes appends to their tags. -/
theorem preorders_graft {nodes : List Node} (hnodes : nodes ≠ [])
    (below : List Node) :
    Node.preorders (graft nodes below) = Node.preorders nodes ++
      Node.preorders below :=
  Node.preorders_modifyLast below hnodes

theorem allTags_graft {P : Tag → Prop} {nodes below : List Node}
    (hnodes : Node.AllTags P nodes) (hbelow : Node.AllTags P below) :
    Node.AllTags P (graft nodes below) := by
  apply hnodes.modifyLast
  intro t ht
  exact Node.allTags_cons.2 ⟨ht, hbelow, Node.allTags_nil⟩

/-- Only the lack of a node to graft onto leaves nothing. -/
theorem graft_eq_nil_iff {nodes below : List Node} :
    graft nodes below = [] ↔ nodes = [] := by
  constructor
  · intro h
    cases nodes with
    | nil => rfl
    | cons n ns =>
        have htags := preorders_graft (List.cons_ne_nil n ns) below
        obtain ⟨tag, children⟩ := n
        simp [h] at htags
  · rintro rfl
    rfl

theorem mem_names_graft {nodes below : List Node} {name : String}
    (h : name ∈ Node.names (graft nodes below)) :
    name ∈ Node.names nodes ∨ name ∈ Node.names below := by
  cases nodes with
  | nil => cases h
  | cons n ns =>
      rw [Node.names, preorders_graft (List.cons_ne_nil n ns),
        List.filterMap_append] at h
      exact List.mem_append.1 h

/-- What was written about a node does not rename the nodes of its snippet. -/
theorem names_map_overlay (reverse : Bool) (own : Tag) (nodes : List Node) :
    Node.names (nodes.map (overlay reverse own)) = Node.names nodes := by
  induction nodes with
  | nil => rfl
  | cons n ns ih =>
      obtain ⟨tag, children⟩ := n
      simp only [Node.names, List.map_cons, Node.preorders_cons,
        List.filterMap_append] at ih ⊢
      rw [ih, overlay, Node.preorder_mk, Node.preorder_mk]
      rfl

end Snippet

end Scaffold

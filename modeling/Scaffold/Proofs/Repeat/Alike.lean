import Mathlib.Data.List.Forall2
import Scaffold.Node.Unrolling
/-!
Trees that come from the same abbreviation, once with bare repeaters and once
with counted ones. They are alike but for two things: the mark that a bare
repeater leaves on its copies, and an empty text at the end of a value, which a
bare repeater puts into the last leaf of a copy.  Where such a text may be is up
to a condition on the tag without it.
-/
namespace Scaffold

/-- A copy without the mark of a bare repeater. -/
def Repeat.counted (r : Repeat) : Repeat := { r with implicit := false }

namespace Piece

theorem appendText_concat (front : List Piece) (last s : String) :
    appendText (front ++ [text last]) s = front ++ [text (last ++ s)] := by
  simp [appendText]

theorem appendText_eq (ps : List Piece) (s : String) :
    (∃ front last, ps = front ++ [text last] ∧
      appendText ps s = front ++ [text (last ++ s)]) ∨
      appendText ps s = ps ++ [text s] := by
  rcases List.eq_nil_or_concat ps with rfl | ⟨front, last, rfl⟩
  · exact .inr rfl
  · rw [List.concat_eq_append]
    cases last with
    | text last => exact .inl ⟨front, last, rfl, appendText_concat front last s⟩
    | field index name => exact .inr (by simp [appendText])

end Piece

namespace Tag

/-- The tags differ at most in the mark of their copies, and in an empty text
that the first one has at the end of its value; this only where the second one
is `free` to get it. -/
structure Alike (free : Tag → Prop) (t u : Tag) : Prop where
  name : t.name = u.name
  attributes : t.attributes = u.attributes
  selfClosing : t.selfClosing = u.selfClosing
  copy : t.copy.map Repeat.counted = u.copy.map Repeat.counted
  value : t.value = u.value ∨ free u ∧
    t.value = some (u.value.getD [] ++ [.text ""])

namespace Alike

variable {free : Tag → Prop} {t u : Tag}

theorem refl (free : Tag → Prop) (t : Tag) : Alike free t t :=
  ⟨rfl, rfl, rfl, rfl, .inl rfl⟩

theorem isText (h : Alike free t u) : t.isText = u.isText := by
  rw [Tag.isText, Tag.isText, h.name, h.attributes]

theorem attributeList (h : Alike free t u) :
    t.attributeList = u.attributeList := by
  rw [Tag.attributeList, Tag.attributeList, h.attributes]

theorem find? (h : Alike free t u) (name : String) :
    t.find? name = u.find? name := by
  rw [Tag.find?, Tag.find?, h.attributeList]

/-- A test that an empty text fails sees no difference. -/
theorem any_value (h : Alike free t u) {test : Piece → Bool}
    (htest : test (.text "") = false) :
    (t.value.getD []).any test = (u.value.getD []).any test := by
  rcases h.value with heq | ⟨-, heq⟩ <;> simp [heq, htest]

theorem hasField (h : Alike free t u) : t.hasField = u.hasField :=
  h.any_value rfl

/-- Changing the attributes of both tags in one way keeps them alike. -/
theorem mapAttributes (h : Alike free t u) {free' : Tag → Prop}
    (f : List Attribute → List Attribute)
    (hfree : free u → free' { u with attributes := u.attributes.map f }) :
    Alike free' { t with attributes := t.attributes.map f }
      { u with attributes := u.attributes.map f } where
  name := h.name
  attributes := congrArg (Option.map f) h.attributes
  selfClosing := h.selfClosing
  copy := h.copy
  value := h.value.imp_right fun heq => ⟨hfree heq.1, heq.2⟩

end Alike

/-- An empty text behind the value is allowed, or becomes part of the text that
is there. -/
def Takes (free : Tag → Prop) (t : Tag) : Prop :=
  free t ∨ ∃ front last, t.value = some (front ++ [.text last])

/-- An empty text behind the first value keeps tags alike where the second tag
can take it. -/
theorem Alike.appendText {free : Tag → Prop} {t u : Tag} (h : t.Alike free u)
    (htakes : u.Takes free) : (t.appendText "").Alike free u := by
  refine ⟨h.name, h.attributes, h.selfClosing, h.copy, ?_⟩
  rcases h.value with heq | ⟨hfree, heq⟩
  · rcases htakes with hfree | ⟨front, last, hlast⟩
    · rcases Piece.appendText_eq (t.value.getD []) ""
        with ⟨front, last, hvalue, happend⟩ | happend
      · left
        have hsome : t.value = some (front ++ [.text last]) := by
          cases hv : t.value with
          | none => simp [hv] at hvalue
          | some value => rw [← hvalue, hv, Option.getD_some]
        rw [Tag.appendText, happend, ← heq, hsome, String.append_empty]
      · right
        exact ⟨hfree, by rw [Tag.appendText, happend, heq]⟩
    · left
      rw [Tag.appendText, heq, hlast, Option.getD_some, Piece.appendText_concat,
        String.append_empty]
  · right
    rw [Tag.appendText, heq, Option.getD_some, Piece.appendText_concat,
      String.append_empty]
    exact ⟨hfree, rfl⟩

end Tag

namespace Node

mutual

/-- The nodes have the same shape and tags that are alike. -/
def Alike (free : Tag → Prop) : Node → Node → Prop
  | ⟨t, cs⟩, ⟨u, ds⟩ => t.Alike free u ∧ AllAlike free cs ds

def AllAlike (free : Tag → Prop) : List Node → List Node → Prop
  | [], [] => True
  | n :: ns, m :: ms => Alike free n m ∧ AllAlike free ns ms
  | _, _ => False

end

section

variable {free : Tag → Prop}

mutual

theorem Alike.refl (free : Tag → Prop) (n : Node) : Alike free n n := by
  obtain ⟨t, cs⟩ := n
  exact ⟨.refl free t, allAlike_refl free cs⟩

theorem allAlike_refl (free : Tag → Prop) (ns : List Node) :
    AllAlike free ns ns := by
  match ns with
  | [] => trivial
  | n :: ns => exact ⟨Alike.refl free n, allAlike_refl free ns⟩

end

theorem Alike.tag {n m : Node} (h : Alike free n m) :
    n.tag.Alike free m.tag := by
  obtain ⟨t, cs⟩ := n
  obtain ⟨u, ds⟩ := m
  exact h.1

theorem AllAlike.eq_nil_iff {ns ms : List Node} (h : AllAlike free ns ms) :
    ns = [] ↔ ms = [] := by
  cases ns <;> cases ms <;> simp_all [AllAlike]

theorem AllAlike.isEmpty {ns ms : List Node} (h : AllAlike free ns ms) :
    ns.isEmpty = ms.isEmpty := by
  cases ns <;> cases ms <;> simp_all [AllAlike]

theorem AllAlike.append {ns ms more more' : List Node} (h : AllAlike free ns ms)
    (hmore : AllAlike free more more') :
    AllAlike free (ns ++ more) (ms ++ more') := by
  induction ns generalizing ms with
  | nil =>
      obtain rfl := h.eq_nil_iff.1 rfl
      exact hmore
  | cons n ns ih =>
      cases ms with
      | nil => exact h.elim
      | cons m ms => exact ⟨h.1, ih h.2⟩

theorem AllAlike.map {ns ms : List Node} (h : AllAlike free ns ms)
    {f g : Node → Node} (hfg : ∀ n m, Alike free n m → Alike free (f n) (g m)) :
    AllAlike free (ns.map f) (ms.map g) := by
  induction ns generalizing ms with
  | nil =>
      obtain rfl := h.eq_nil_iff.1 rfl
      trivial
  | cons n ns ih =>
      cases ms with
      | nil => exact h.elim
      | cons m ms => exact ⟨hfg n m h.1, ih h.2⟩

/-- The tags of nodes that are alike, one by one. -/
theorem AllAlike.tags {ns ms : List Node} (h : AllAlike free ns ms) :
    List.Forall₂ (Tag.Alike free) (ns.map (·.tag)) (ms.map (·.tag)) := by
  induction ns generalizing ms with
  | nil =>
      obtain rfl := h.eq_nil_iff.1 rfl
      exact .nil
  | cons n ns ih =>
      cases ms with
      | nil => exact h.elim
      | cons m ms => exact .cons h.1.tag (ih h.2)

end

/-! ### Last leaves -/

mutual

def HoldsAtLeaf (P : Tag → Prop) : Node → Prop
  | ⟨t, []⟩ => P t
  | ⟨_, c :: cs⟩ => HoldsAtLast P (c :: cs)

def HoldsAtLast (P : Tag → Prop) : List Node → Prop
  | [] => True
  | [n] => HoldsAtLeaf P n
  | _ :: m :: ms => HoldsAtLast P (m :: ms)

end

mutual

theorem holdsAtLeaf_true (n : Node) : HoldsAtLeaf (fun _ => True) n := by
  match n with
  | ⟨t, []⟩ => trivial
  | ⟨_, c :: cs⟩ => exact holdsAtLast_true (c :: cs)

theorem holdsAtLast_true (ns : List Node) : HoldsAtLast (fun _ => True) ns := by
  match ns with
  | [] => trivial
  | [n] => exact holdsAtLeaf_true n
  | _ :: m :: ms => exact holdsAtLast_true (m :: ms)

end

section

variable {P : Tag → Prop}

theorem holdsAtLast_cons {n : Node} {ns : List Node} (hns : ns ≠ []) :
    HoldsAtLast P (n :: ns) ↔ HoldsAtLast P ns := by
  cases ns with
  | nil => exact absurd rfl hns
  | cons m ms => rw [HoldsAtLast]

theorem holdsAtLast_singleton {t : Tag} {cs : List Node} (hcs : cs ≠ []) :
    HoldsAtLast P [⟨t, cs⟩] ↔ HoldsAtLast P cs := by
  cases cs with
  | nil => exact absurd rfl hcs
  | cons c cs => rw [HoldsAtLast, HoldsAtLeaf]

/-- A tag beside nodes has the same last leaf as the tag above them. -/
theorem holdsAtLast_beside {t : Tag} {cs : List Node} :
    HoldsAtLast P (⟨t, []⟩ :: cs) ↔ HoldsAtLast P [⟨t, cs⟩] := by
  cases cs with
  | nil => rfl
  | cons c cs => rw [HoldsAtLast, HoldsAtLast, HoldsAtLeaf]

theorem holdsAtLast_append {ns ms : List Node} (hms : ms ≠ []) :
    HoldsAtLast P (ns ++ ms) ↔ HoldsAtLast P ms := by
  induction ns with
  | nil => rfl
  | cons n ns ih => rw [List.cons_append, holdsAtLast_cons (by simp [hms]), ih]

/-- What keeps the condition on every tag keeps it at the last leaf. -/
theorem holdsAtLast_map {f : Tag → Tag} (hf : ∀ t, P t → P (f t))
    {ns : List Node} (h : HoldsAtLast P ns) :
    HoldsAtLast P (ns.map fun n => { n with tag := f n.tag }) := by
  induction ns with
  | nil => trivial
  | cons n ns ih =>
      cases ns with
      | cons m ms => exact ih h
      | nil =>
          obtain ⟨t, cs⟩ := n
          cases cs with
          | nil => exact hf t h
          | cons c cs => exact h

variable {free : Tag → Prop} {f g : Node → Node}

mutual

/-- Changing the last leaves of both keeps nodes alike if it keeps the leaves
alike. -/
theorem Alike.modifyDeepest
    (hfg : ∀ t u, t.Alike free u → P u → Alike free (f ⟨t, []⟩) (g ⟨u, []⟩))
    {n m : Node} (h : Alike free n m) (hleaf : HoldsAtLeaf P m) :
    Alike free (modifyDeepest f n) (modifyDeepest g m) := by
  obtain ⟨t, cs⟩ := n
  obtain ⟨u, ds⟩ := m
  match cs, ds with
  | [], [] => exact hfg t u h.1 hleaf
  | [], _ :: _ => exact h.2.elim
  | _ :: _, [] => exact h.2.elim
  | c :: cs, d :: ds =>
      exact ⟨h.1, AllAlike.modifyLast hfg h.2 hleaf⟩

theorem AllAlike.modifyLast
    (hfg : ∀ t u, t.Alike free u → P u → Alike free (f ⟨t, []⟩) (g ⟨u, []⟩))
    {ns ms : List Node} (h : AllAlike free ns ms) (hleaf : HoldsAtLast P ms) :
    AllAlike free (modifyLast f ns) (modifyLast g ms) := by
  match ns, ms with
  | [], [] => trivial
  | [n], [m] => exact ⟨Alike.modifyDeepest hfg h.1 hleaf, trivial⟩
  | n :: n' :: ns, m :: m' :: ms =>
      exact ⟨h.1, AllAlike.modifyLast hfg h.2 hleaf⟩
  | [], _ :: _ => exact h.elim
  | _ :: _, [] => exact h.elim
  | [_], _ :: _ :: _ => exact h.2.elim
  | _ :: _ :: _, [_] => exact h.2.elim

end

end

mutual

theorem modifyDeepest_id (n : Node) : modifyDeepest id n = n := by
  obtain ⟨t, cs⟩ := n
  cases cs with
  | nil => rfl
  | cons c cs => rw [modifyDeepest, modifyLast_id (c :: cs)]

theorem modifyLast_id (ns : List Node) : modifyLast id ns = ns := by
  match ns with
  | [] => rfl
  | [n] => rw [modifyLast, modifyDeepest_id n]
  | n :: m :: ms => rw [modifyLast, modifyLast_id (m :: ms)]

end

end Node

/-- Filling the last leaf with an empty text keeps nodes alike where the leaf
can take it. -/
theorem Node.AllAlike.fillDeepest {free : Tag → Prop} {ns ms : List Node}
    (h : AllAlike free ns ms) (hleaf : HoldsAtLast (Tag.Takes free) ms) :
    AllAlike free (Unrolling.fillDeepest "" ns) ms := by
  have hfill : ∀ t u : Tag, t.Alike free u → u.Takes free →
      Alike free ⟨t.appendText "", []⟩ (id ⟨u, []⟩) :=
    fun t u htu htakes => ⟨htu.appendText htakes, trivial⟩
  rw [Unrolling.fillDeepest, ← modifyLast_id ms]
  exact h.modifyLast hfill hleaf

end Scaffold

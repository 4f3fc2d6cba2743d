import Scaffold.Node.Refinement
/-!
Trees of one shape, tag by tag.  What relates their tags may look at the tags of
the parents as well. A relation that does not see what a label changes in its
input holds of the tree before that as well as after it.  Main statements:
`AllPaired.of_relabel`, `AllPairedBelow.of_relabel`.
-/
namespace Scaffold.Node

mutual

/-- Two nodes have the same shape, and their tags are related one by one, where
the tags of the nodes above them may play a part. -/
def Paired (R : Option (Tag × Tag) → Tag → Tag → Prop)
    (above : Option (Tag × Tag)) : Node → Node → Prop
  | ⟨t, children⟩, ⟨u, refined⟩ =>
      R above t u ∧ AllPaired R (some (t, u)) children refined

def AllPaired (R : Option (Tag × Tag) → Tag → Tag → Prop)
    (above : Option (Tag × Tag)) : List Node → List Node → Prop
  | [], [] => True
  | n :: ns, m :: ms => Paired R above n m ∧ AllPaired R above ns ms
  | _, _ => False

end

/-- A relation of tags does not see what a function changes. -/
structure Overlooks (R : Option (Tag × Tag) → Tag → Tag → Prop)
    (f : Tag → Tag) : Prop where
  tag : ∀ above t u, R above (f t) u → R above t u
  above : ∀ t u v w, R (some (f t, u)) v w → R (some (t, u)) v w

section Pairs

variable {R : Option (Tag × Tag) → Tag → Tag → Prop}
    {above above' : Option (Tag × Tag)} {f : Tag → Tag}

theorem AllPaired.imp_above (h : ∀ t u, R above t u → R above' t u)
    {ns ms : List Node} (hns : AllPaired R above ns ms) :
    AllPaired R above' ns ms := by
  induction ns generalizing ms with
  | nil =>
      cases ms with
      | nil => trivial
      | cons m ms => exact hns.elim
  | cons n ns ih =>
      cases ms with
      | nil => exact hns.elim
      | cons m ms =>
          obtain ⟨t, children⟩ := n
          obtain ⟨u, refined⟩ := m
          obtain ⟨⟨hpair, hbelow⟩, hrest⟩ := hns
          exact ⟨⟨h t u hpair, hbelow⟩, ih hrest⟩

mutual

theorem Paired.of_modifyInput (hf : Overlooks R f) {above : Option (Tag × Tag)}
    {n n' m : Node} (hn : modifyInput f n = some n') (h : Paired R above n' m) :
    Paired R above n m := by
  obtain ⟨t, children⟩ := n
  obtain ⟨u, refined⟩ := m
  rw [modifyInput] at hn
  split at hn
  · obtain rfl := Option.some.inj hn
    rw [Paired] at h ⊢
    exact ⟨hf.tag above t u h.1, h.2.imp_above (hf.above t u)⟩
  · obtain ⟨below, hbelow, rfl⟩ := Option.map_eq_some_iff.1 hn
    rw [Paired] at h ⊢
    exact ⟨h.1, .of_modifyFirstInput hf hbelow h.2⟩

theorem AllPaired.of_modifyFirstInput (hf : Overlooks R f)
    {above : Option (Tag × Tag)} {ns ns' ms : List Node}
    (hns : modifyFirstInput f ns = some ns') (h : AllPaired R above ns' ms) :
    AllPaired R above ns ms := by
  match ns, ms with
  | [], _ => cases hns
  | n :: ns, [] =>
      rw [modifyFirstInput] at hns
      split at hns
      · obtain rfl := Option.some.inj hns
        exact h.elim
      · obtain ⟨rest, -, rfl⟩ := Option.map_eq_some_iff.1 hns
        exact h.elim
  | n :: ns, m :: ms =>
      rw [modifyFirstInput] at hns
      split at hns
      · next n' hn =>
          obtain rfl := Option.some.inj hns
          exact ⟨.of_modifyInput hf hn h.1, h.2⟩
      · obtain ⟨rest, hrest, rfl⟩ := Option.map_eq_some_iff.1 hns
        exact ⟨h.1, .of_modifyFirstInput hf hrest h.2⟩

end

theorem AllPaired.of_relabel (hf : Overlooks R (withoutVacant "id")) {t : Tag}
    {children ms : List Node}
    (h : AllPaired R above (relabel t children).2 ms) :
    AllPaired R above children ms := by
  rw [relabel] at h
  split at h
  · split at h
    · next below hbelow => exact .of_modifyFirstInput hf hbelow h
    · exact h
  · exact h

end Pairs

/-! ### All nodes above -/

mutual

/-- Two nodes have the same shape, and their tags are related one by one, where
the second tags of all nodes above, the innermost first, may play a part. -/
def PairedBelow (R : List Tag → Tag → Tag → Prop) (around : List Tag) :
    Node → Node → Prop
  | ⟨t, children⟩, ⟨u, refined⟩ =>
      R around t u ∧ AllPairedBelow R (u :: around) children refined

def AllPairedBelow (R : List Tag → Tag → Tag → Prop) (around : List Tag) :
    List Node → List Node → Prop
  | [], [] => True
  | n :: ns, m :: ms => PairedBelow R around n m ∧ AllPairedBelow R around ns ms
  | _, _ => False

end

section Below

variable {R : List Tag → Tag → Tag → Prop} {f : Tag → Tag}

mutual

theorem PairedBelow.of_modifyInput
    (hf : ∀ around t u, R around (f t) u → R around t u) {around : List Tag}
    {n n' m : Node} (hn : modifyInput f n = some n')
    (h : PairedBelow R around n' m) : PairedBelow R around n m := by
  obtain ⟨t, children⟩ := n
  obtain ⟨u, refined⟩ := m
  rw [modifyInput] at hn
  split at hn
  · obtain rfl := Option.some.inj hn
    rw [PairedBelow] at h ⊢
    exact ⟨hf around t u h.1, h.2⟩
  · obtain ⟨below, hbelow, rfl⟩ := Option.map_eq_some_iff.1 hn
    rw [PairedBelow] at h ⊢
    exact ⟨h.1, .of_modifyFirstInput hf hbelow h.2⟩

theorem AllPairedBelow.of_modifyFirstInput
    (hf : ∀ around t u, R around (f t) u → R around t u) {around : List Tag}
    {ns ns' ms : List Node} (hns : modifyFirstInput f ns = some ns')
    (h : AllPairedBelow R around ns' ms) : AllPairedBelow R around ns ms := by
  match ns, ms with
  | [], _ => cases hns
  | n :: ns, [] =>
      rw [modifyFirstInput] at hns
      split at hns
      · obtain rfl := Option.some.inj hns
        exact h.elim
      · obtain ⟨rest, -, rfl⟩ := Option.map_eq_some_iff.1 hns
        exact h.elim
  | n :: ns, m :: ms =>
      rw [modifyFirstInput] at hns
      split at hns
      · next n' hn =>
          obtain rfl := Option.some.inj hns
          exact ⟨.of_modifyInput hf hn h.1, h.2⟩
      · obtain ⟨rest, hrest, rfl⟩ := Option.map_eq_some_iff.1 hns
        exact ⟨h.1, .of_modifyFirstInput hf hrest h.2⟩

end

theorem AllPairedBelow.of_relabel
    (hf : ∀ around t u, R around (withoutVacant "id" t) u → R around t u)
    {around : List Tag} {t : Tag} {children ms : List Node}
    (h : AllPairedBelow R around (relabel t children).2 ms) :
    AllPairedBelow R around children ms := by
  rw [relabel] at h
  split at h
  · split at h
    · next below hbelow => exact .of_modifyFirstInput hf hbelow h
    · exact h
  · exact h

end Below

end Scaffold.Node

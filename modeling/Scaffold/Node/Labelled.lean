import Scaffold.Node
/-!
Labels around the inputs they label. Such a label needs no target and the input
no identifier, as long as these are vacant.
-/
namespace Scaffold.Node

/-- The tag without vacant attributes of a name. -/
def withoutVacant (name : String) (t : Tag) : Tag :=
  { t with attributes := t.attributes.map (·.filter fun a =>
    !(a.hasName name && a.isVacant)) }

/-- Whether a tag is one that labels are for. -/
def isInput (t : Tag) : Bool :=
  t.name == some "input" || t.name == some "textarea"

mutual

def modifyInput (f : Tag → Tag) : Node → Option Node
  | ⟨tag, children⟩ =>
    if isInput tag then some ⟨f tag, children⟩
    else (modifyFirstInput f children).map (⟨tag, ·⟩)

def modifyFirstInput (f : Tag → Tag) : List Node → Option (List Node)
  | [] => none
  | n :: ns =>
    match modifyInput f n with
    | some n => some (n :: ns)
    | none => (modifyFirstInput f ns).map (n :: ·)

end

/-- A tag and the nodes below it, without what a label does not need. -/
def relabel (tag : Tag) (children : List Node) : Tag × List Node :=
  if tag.name == some "label" then
    match modifyFirstInput (withoutVacant "id") children with
    | some children => (withoutVacant "for" tag, children)
    | none => (tag, children)
  else (tag, children)

mutual

/-- The number of nodes of a node. -/
def size : Node → Nat
  | ⟨_, children⟩ => sizes children + 1

def sizes : List Node → Nat
  | [] => 0
  | n :: ns => size n + sizes ns

end

theorem size_pos (n : Node) : 0 < n.size := by
  cases n
  simp [size]

mutual

theorem size_modifyInput (f : Tag → Tag) (n : Node) :
    ∀ m, modifyInput f n = some m → m.size = n.size := by
  obtain ⟨tag, children⟩ := n
  intro m h
  rw [modifyInput] at h
  split at h
  · simp only [Option.some.injEq] at h
    subst h
    simp [size]
  · obtain ⟨cs, hcs, rfl⟩ := Option.map_eq_some_iff.1 h
    simp [size, sizes_modifyFirstInput f children cs hcs]

theorem sizes_modifyFirstInput (f : Tag → Tag) (ns : List Node) :
    ∀ ms, modifyFirstInput f ns = some ms → sizes ms = sizes ns := by
  match ns with
  | [] =>
    intro ms h
    simp [modifyFirstInput] at h
  | n :: ns =>
    intro ms h
    rw [modifyFirstInput] at h
    split at h
    · rename_i m hm
      simp only [Option.some.injEq] at h
      subst h
      simp [sizes, size_modifyInput f n m hm]
    · obtain ⟨cs, hcs, rfl⟩ := Option.map_eq_some_iff.1 h
      simp [sizes, sizes_modifyFirstInput f ns cs hcs]

end

@[simp] theorem sizes_relabel (tag : Tag) (children : List Node) :
    sizes (relabel tag children).2 = sizes children := by
  rw [relabel]
  split
  · split
    · rename_i cs h
      exact sizes_modifyFirstInput _ _ _ h
    · rfl
  · rfl

end Scaffold.Node

import Scaffold.Proofs.Refinement.Passes
import Scaffold.Proofs.Text.Lowercase
/-!
The names of nameless elements.  Refinement keeps the shape of a tree and all of
a node but its attributes, and an element with attributes and without a name is
named after the nearest named node around it, as that one is called in the
refined tree.  Where no node around it has a name, the empty name stands for the
missing one, so a table may say what elements at the top are.  Main statement:
`refine_names_nodes`.
-/
namespace Scaffold.Node

/-- The child tag of a lower-case parent tag, or else one of the fallbacks. -/
def tagWithin (c : Config) (parent : String) : String :=
  match c.implicitTags.entries.lookup parent with
  | some child => child
  | none =>
    if c.options.isInline parent then c.implicitTags.inlineFallback
    else c.implicitTags.blockFallback

/-- The first name of the nodes around an element, from the innermost one on. -/
def nearestName (around : List (Option String)) : Option String :=
  around.findSome? id

/-- The name of an element by the names around it: by the nearest one, or by the
empty name. -/
def nameWithin (c : Config) (around : List (Option String)) : String :=
  tagWithin c (Text.lowercase ((nearestName around).getD ""))

/-- The name that a tag gets, where nameless elements are called as given. -/
def nameGiven (given : String) (t : Tag) : Option String :=
  match t.name with
  | some name => some name
  | none => if t.attributes.isSome then some given else none

/-- A tag keeps all but its name and its attributes, and gets a name. -/
structure IsRenamed (name : Option String) (t u : Tag) : Prop where
  value : u.value = t.value
  copy : u.copy = t.copy
  selfClosing : u.selfClosing = t.selfClosing
  name : u.name = name

mutual

/-- The second node is the first one, with nameless elements called by a rule
from the names that the nodes around them have in the end. -/
def IsNaming (rule : List (Option String) → String)
    (around : List (Option String)) : Node → Node → Prop
  | ⟨t, children⟩, ⟨u, named⟩ =>
    IsRenamed (nameGiven (rule around) t) t u ∧
      AreNamings rule (u.name :: around) children named

def AreNamings (rule : List (Option String) → String)
    (around : List (Option String)) : List Node → List Node → Prop
  | [], [] => True
  | n :: ns, m :: ms => IsNaming rule around n m ∧ AreNamings rule around ns ms
  | _, _ => False

end

/-- Names are found in the table in lower case, which they already are. -/
theorem implicitName_eq (c : Config) (above : List Frame) :
    implicitName c above = nameWithin c (above.map (·.name)) := by
  have hnearest : above.findSome? (·.name) =
      nearestName (above.map (·.name)) := by
    rw [nearestName, List.findSome?_map]
    rfl
  have hlookup : ∀ s, c.implicitTags.lookup (Text.lowercase s) =
      c.implicitTags.entries.lookup (Text.lowercase s) := by
    intro s
    rw [ImplicitTags.lookup, Text.lowercase_lowercase]
  rw [implicitName, hnearest, hlookup]
  rfl

theorem name_nameImplicitly (c : Config) (above : List Frame) (t : Tag) :
    (nameImplicitly c above t).name =
      nameGiven (nameWithin c (above.map (·.name))) t := by
  rw [nameImplicitly, nameGiven, implicitName_eq]
  cases hname : t.name with
  | some name => simp [hname]
  | none => cases hattributes : t.attributes <;> simp [hname]

theorem isRenamed_nameImplicitly (c : Config) (above : List Frame) (t : Tag) :
    IsRenamed (nameGiven (nameWithin c (above.map (·.name))) t) t
      (nameImplicitly c above t) := by
  refine ⟨?_, ?_, ?_, name_nameImplicitly c above t⟩ <;> rw [nameImplicitly] <;>
    split <;> rfl

section Rule

variable {rule : List (Option String) → String}

theorem IsRenamed.trans_same {name : Option String} {t u v : Tag}
    (h : IsRenamed name t u) (h' : u.SameButAttributes v) :
    IsRenamed name t v :=
  ⟨h'.value.trans h.value, h'.copy.trans h.copy,
    h'.selfClosing.trans h.selfClosing, h'.name.trans h.name⟩

/-- What attributes a tag has does not matter to what it is called. -/
theorem IsRenamed.of_same {given : String} {t u v : Tag}
    (h : t.SameButAttributes u) (h' : IsRenamed (nameGiven given u) u v) :
    IsRenamed (nameGiven given t) t v := by
  have hname : nameGiven given u = nameGiven given t := by
    rw [nameGiven, nameGiven, h.name, h.attributes]
  exact ⟨h'.value.trans h.value, h'.copy.trans h.copy,
    h'.selfClosing.trans h.selfClosing, h'.name.trans hname⟩

mutual

/-- A node with other attributes in its first input is named alike. -/
theorem IsNaming.of_modifyInput {f : Tag → Tag}
    (hf : ∀ t : Tag, t.SameButAttributes (f t)) {around : List (Option String)}
    {n n' m : Node} (hn : modifyInput f n = some n')
    (h : IsNaming rule around n' m) : IsNaming rule around n m := by
  obtain ⟨t, children⟩ := n
  obtain ⟨u, named⟩ := m
  rw [modifyInput] at hn
  split at hn
  · obtain rfl := Option.some.inj hn
    rw [IsNaming] at h ⊢
    exact ⟨.of_same (hf t) h.1, h.2⟩
  · obtain ⟨below, hbelow, rfl⟩ := Option.map_eq_some_iff.1 hn
    rw [IsNaming] at h ⊢
    exact ⟨h.1, .of_modifyFirstInput hf hbelow h.2⟩

theorem AreNamings.of_modifyFirstInput {f : Tag → Tag}
    (hf : ∀ t : Tag, t.SameButAttributes (f t)) {around : List (Option String)}
    {ns ns' ms : List Node} (hns : modifyFirstInput f ns = some ns')
    (h : AreNamings rule around ns' ms) : AreNamings rule around ns ms := by
  match ns, ms with
  | [], _ => cases hns
  | n :: ns, [] =>
      rw [modifyFirstInput] at hns
      split at hns
      · obtain rfl := Option.some.inj hns
        exact h.elim
      · obtain ⟨rest, -, rfl⟩ := Option.map_eq_some_iff.1 hns
        exact h.elim
  | n :: ns, m :: ms =>
      rw [modifyFirstInput] at hns
      split at hns
      · next n' hn =>
          obtain rfl := Option.some.inj hns
          exact ⟨.of_modifyInput hf hn h.1, h.2⟩
      · obtain ⟨rest, hrest, rfl⟩ := Option.map_eq_some_iff.1 hns
        exact ⟨h.1, .of_modifyFirstInput hf hrest h.2⟩

end

/-- Labelling an input renames nothing. -/
theorem AreNamings.of_relabel {around : List (Option String)} {t : Tag}
    {children ms : List Node}
    (h : AreNamings rule around (relabel t children).2 ms) :
    AreNamings rule around children ms := by
  rw [relabel] at h
  split at h
  · split at h
    · next below hbelow =>
        exact .of_modifyFirstInput
          (sameButAttributes_withoutVacant "id") hbelow h
    · exact h
  · exact h

end Rule

section Refining

variable {σ : Type} [Random.Source σ] {c : Config}

mutual

/-- One node: it is named first, and those below it see the name. -/
theorem isNaming_refineNode (table : c.implicitTags.All Lorem.IsOrdinary)
    (above : List Frame) {n : Node} (h : AllTags Tag.IsOrdinary [n]) (s : σ) :
    IsNaming (nameWithin c)
      (above.map (·.name)) n (refineNode c above n s).1 := by
  match n with
  | ⟨t, children⟩ =>
      obtain ⟨ht, hchildren, -⟩ : t.IsOrdinary ∧
          AllTags Tag.IsOrdinary children ∧ _ :=
        allTags_cons.1 h
      have hbelow :=
        isOrdinary_relabel (ordered c above t (!children.isEmpty)) hchildren
      have hsame := ((sameButAttributes_ordered c above t
        (!children.isEmpty)).trans (sameButAttributes_relabel _ children)).trans
        (sameButAttributes_expandClasses c above _)
      rw [refineNode_eq above table ht]
      refine ⟨(isRenamed_nameImplicitly c above t).trans_same hsame,
        .of_relabel (t := ordered c above t (!children.isEmpty)) ?_⟩
      exact areNamings_refineNodes table (⟨_, _, _⟩ :: above) hbelow s
termination_by 2 * size n + 1
decreasing_by
  simp [size]
  omega

theorem areNamings_refineNodes (table : c.implicitTags.All Lorem.IsOrdinary)
    (above : List Frame) {ns : List Node} (h : AllTags Tag.IsOrdinary ns)
    (s : σ) :
    AreNamings (nameWithin c)
      (above.map (·.name)) ns (refineNodes c above ns s).1 := by
  match ns with
  | [] =>
      rw [refineNodes]
      trivial
  | n :: ns =>
      obtain ⟨hn, hns⟩ := allTags_cons_iff.1 h
      rw [refineNodes]
      exact ⟨isNaming_refineNode table above hn s,
        areNamings_refineNodes table above hns _⟩
termination_by 2 * sizes ns + 2
decreasing_by
  · simp only [sizes]
    omega
  · simp [sizes]
    exact size_pos _

end

end Refining

/-- Refining keeps the shape of a tree, and of each node all but its attributes.
An element without a name is called what the table says of the nearest name
around it in the refined tree, or else one of the fallbacks; where there is no
name around it, the table is asked for the empty name, so it is called by the
fallback of blocks if that is neither in the table nor inline. -/
theorem refine_names_nodes {c : Config}
    (table : c.implicitTags.All Lorem.IsOrdinary) {nodes : List Node}
    (ordinary : AllTags Tag.IsOrdinary nodes) :
    AreNamings (nameWithin c) [] nodes (refine c nodes) ∧
      ∀ around : List (Option String), nearestName around = none →
        c.implicitTags.entries.lookup "" = none →
        c.options.isInline "" = false →
          nameWithin c around = c.implicitTags.blockFallback := by
  refine ⟨areNamings_refineNodes table [] ordinary _, ?_⟩
  intro around hnone hentry hinline
  have hempty : Text.lowercase "" = "" := by decide
  rw [nameWithin, hnone, Option.getD_none, hempty, tagWithin, hentry, hinline]
  rfl

namespace NamingWitness

def config : Config := { snippets := {} }

/-- A list of a nameless item that holds a text, and in that a nameless
element. -/
def tree : List Node :=
  [⟨{ name := some "UL" }, [⟨{ attributes := some [] }, [⟨{ value := some [.text
    "x", .field 0 ""] }, [⟨{ attributes := some [] }, []⟩]⟩]⟩]⟩]

theorem names_refine_tree :
    names (refine config tree) = ["UL", "li", "div"] := by
  have hitem : implicitName config [{ name := some "UL" }] = "li" := by
    decide +kernel
  have hblock : implicitName config
      [{}, { name := some "li" }, { name := some "UL" }] = "div" := by
    decide +kernel
  have hlist : Lorem.Request.ofName? "UL" = none := by decide
  have hli : Lorem.Request.ofName? "li" = none := by decide
  have hdiv : Lorem.Request.ofName? "div" = none := by decide
  rw [config] at hitem hblock
  simp [refine, tree, refineNodes, refineNode, nameImplicitly, mergeAttributes,
    fillLorem, relabel, expandClasses, config, hitem, hblock, hlist, hli, hdiv]
  rfl

/-- The item is called after the list, and the element in the text after the
item. -/
theorem refine_names_nodes_list :
    (config.implicitTags.All Lorem.IsOrdinary ∧ AllTags Tag.IsOrdinary tree) ∧
      AreNamings (nameWithin config) [] tree (refine config tree) ∧
      names (refine config tree) = ["UL", "li", "div"] := by
  have ordinary : AllTags Tag.IsOrdinary tree := by
    rw [AllTags]
    decide
  exact ⟨⟨ImplicitTags.isOrdinary_html, ordinary⟩, (refine_names_nodes
    ImplicitTags.isOrdinary_html ordinary).1, names_refine_tree⟩

/-- The table for hypertext, with an entry for the empty name. -/
def listing : Config :=
  { snippets := {}, implicitTags := ImplicitTags.html.insert "" "main" }

/-- Elements are called by the fallback of blocks where there is no name around
them. -/
def nameAtTop (c : Config) (around : List (Option String)) : String :=
  match nearestName around with
  | some parent => tagWithin c (Text.lowercase parent)
  | none => c.implicitTags.blockFallback

def nameless : Node :=
  ⟨{ attributes := some [{ name := some "class", value := some [.text "a"] }] },
    []⟩

def named (name : String) : Node :=
  ⟨{ name := some name
     attributes :=
       some [{ name := some "class", value := some [.text "a"] }] }, []⟩

theorem refine_nameless : refine listing [nameless] = [named "main"] := by
  rw [listing, nameless, named]
  cbv

theorem tree_nameless :
    Expansion.tree listing ".a" = .ok ⟨[named "main"], [], 0⟩ := by
  rw [listing, named]
  cbv

/-- An element at the top is called what the table says of the empty name. -/
theorem empty_name_listed :
    (listing.implicitTags.All Lorem.IsOrdinary ∧
      AllTags Tag.IsOrdinary [nameless]) ∧
      (expand listing ".a").map (·.result) = .ok "<main class=\"a\"></main>" ∧
      ¬ AreNamings (nameAtTop listing) [] [nameless]
        (refine listing [nameless]) := by
  have hmarkup : Node.render listing [named "main"] =
      "<main class=\"a\"></main>" := by
    decide +kernel
  refine ⟨⟨⟨by decide, by decide, by decide⟩, by rw [AllTags]; decide⟩, ?_, ?_⟩
  · rw [expand, tree_nameless]
    exact congrArg Except.ok hmarkup
  · rw [refine_nameless]
    rintro ⟨⟨⟨-, -, -, hname⟩, -⟩, -⟩
    revert hname
    decide

end NamingWitness

end Scaffold.Node

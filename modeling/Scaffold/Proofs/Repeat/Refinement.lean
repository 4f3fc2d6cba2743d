import Scaffold.Node.Refinement
import Scaffold.Proofs.Repeat.Alike
import Scaffold.Proofs.Snippet.Machine
/-!
The stages between unrolling and writing take trees that are alike to trees that
are alike.  An empty text at the end of a value stays what it is.  One instead
of a value takes the place of the value that a snippet has, and it hides the
attribute of some stylesheet elements, so it has to stand in an element whose
name is no snippet's and none of these.  Main statements:
`allAlike_resolveNodes`, `allAlike_refine`.
-/
namespace Scaffold

namespace Config

/-- An element of this name looks the same with an empty value and without
one. -/
def Ignores (c : Config) (name : String) : Prop :=
  Options.lists c.options.formatForce name = false ∧
    (c.dialect = .xsl → name ≠ "xsl:variable" ∧ name ≠ "xsl:with-param")

/-- Elements have opening and closing tags, and texts and fields are written as
they are. -/
structure IsTagged (c : Config) : Prop where
  hooks : c.hooks = {}
  dialect : c.dialect.isOutline = false

end Config

namespace Tag

/-- An unrolled tag to which an empty text at the end of its value makes no
difference later on. -/
def WillHideEmpty (c : Config) (t : Tag) : Prop :=
  c.IsTagged ∧ (t.value.isSome = true ∨
    t.selfClosing = false ∧ c.options.formatLeafNode = false ∧
      match t.name with
      | some name => c.snippets.get? name = none ∧ c.Ignores name
      | none =>
          t.attributes.isSome = true ∧
            ∀ above, c.Ignores (Node.implicitName c above))

/-- A refined tag that is written in the same way with an empty text at the end
of its value. -/
def HidesEmpty (c : Config) (t : Tag) : Prop :=
  c.IsTagged ∧ (t.value.isSome = true ∨
    t.selfClosing = false ∧ c.options.formatLeafNode = false ∧
      ∃ name, t.name = some name ∧ c.Ignores name)

/-- Changes of the attributes do not show an empty text. -/
theorem willHideEmpty_mapAttributes {c : Config} {t : Tag}
    (f : List Attribute → List Attribute) (h : t.WillHideEmpty c) :
    ({ t with attributes := t.attributes.map f } : Tag).WillHideEmpty c := by
  obtain ⟨htagged, hvalue | ⟨hself, hleaf, hname⟩⟩ := h
  · exact ⟨htagged, .inl hvalue⟩
  · refine ⟨htagged, .inr ⟨hself, hleaf, ?_⟩⟩
    dsimp only
    split at hname
    · exact hname
    · exact ⟨by simpa using hname.1, hname.2⟩

end Tag

namespace Snippet

variable (c : Config)

end Snippet

namespace Node

/-- What a node shows to those below it, without the mark of a bare repeater. -/
def Frame.counted (f : Frame) : Frame :=
  { f with copy := f.copy.map Repeat.counted }

section Inputs

variable {free : Tag → Prop} {f : Tag → Tag}

mutual

theorem modifyInput_alike
    (hf : ∀ t u : Tag, t.Alike free u → (f t).Alike free (f u)) {n m : Node}
    (h : Alike free n m) :
    modifyInput f n = none ∧ modifyInput f m = none ∨
      ∃ n' m', modifyInput f n = some n' ∧ modifyInput f m = some m' ∧
      Alike free n' m' := by
  obtain ⟨t, cs⟩ := n
  obtain ⟨u, ds⟩ := m
  obtain ⟨htag, hchildren⟩ := h
  have hinput : isInput t = isInput u := by rw [isInput, isInput, htag.name]
  rw [modifyInput, modifyInput, hinput]
  by_cases hu : isInput u = true
  · rw [if_pos hu, if_pos hu]
    exact .inr ⟨_, _, rfl, rfl, hf t u htag, hchildren⟩
  · rw [if_neg hu, if_neg hu]
    rcases modifyFirstInput_alike hf hchildren
      with ⟨hn, hm⟩ | ⟨ns, ms, hn, hm, hbelow⟩
    · exact .inl (by simp [hn, hm])
    · exact .inr ⟨⟨t, ns⟩, ⟨u, ms⟩, by simp [hn], by simp [hm], htag, hbelow⟩

theorem modifyFirstInput_alike
    (hf : ∀ t u : Tag, t.Alike free u → (f t).Alike free (f u))
    {ns ms : List Node} (h : AllAlike free ns ms) :
    modifyFirstInput f ns = none ∧ modifyFirstInput f ms = none ∨
      ∃ ns' ms', modifyFirstInput f ns = some ns' ∧
      modifyFirstInput f ms = some ms' ∧
        AllAlike free ns' ms' := by
  match ns, ms with
  | [], [] => exact .inl ⟨rfl, rfl⟩
  | [], _ :: _ => exact h.elim
  | _ :: _, [] => exact h.elim
  | n :: ns, m :: ms =>
      rw [modifyFirstInput, modifyFirstInput]
      rcases modifyInput_alike hf h.1 with ⟨hn, hm⟩ | ⟨n', m', hn, hm, halike⟩
      · rw [hn, hm]
        rcases modifyFirstInput_alike hf h.2
          with ⟨hns, hms⟩ | ⟨ns', ms', hns, hms, hrest⟩
        · exact .inl (by simp [hns, hms])
        · exact .inr ⟨n :: ns', m :: ms', by simp [hns], by simp [hms],
            h.1, hrest⟩
      · rw [hn, hm]
        exact .inr ⟨n' :: ns, m' :: ms, rfl, rfl, halike, h.2⟩

end

end Inputs

section Refining

variable (c : Config) {above above' : List Frame} {t u : Tag}

theorem implicitName_map_counted (above : List Frame) :
    implicitName c (above.map Frame.counted) = implicitName c above := by
  rw [implicitName, implicitName, List.findSome?_map]
  rfl

theorem implicitName_congr
    (h : above.map Frame.counted = above'.map Frame.counted) :
    implicitName c above = implicitName c above' := by
  rw [← implicitName_map_counted, h, implicitName_map_counted]

theorem findSome?_copy_map_counted (above : List Frame) :
    (above.map Frame.counted).findSome? (·.copy) =
      (above.findSome? (·.copy)).map Repeat.counted := by
  induction above with
  | nil => rfl
  | cons f above ih =>
      rw [List.map_cons, List.findSome?_cons, List.findSome?_cons, ih,
        Frame.counted]
      cases f.copy <;> rfl

/-- From the moment that an element has its name, only that name matters. -/
theorem nameImplicitly_alike (h : t.Alike (Tag.WillHideEmpty c) u)
    (habove : above.map Frame.counted = above'.map Frame.counted) :
    (nameImplicitly c above t).Alike (Tag.HidesEmpty c)
      (nameImplicitly c above' u) := by
  have hcondition : (t.name.isNone && t.attributes.isSome) =
      (u.name.isNone && u.attributes.isSome) := by rw [h.name, h.attributes]
  rw [nameImplicitly, nameImplicitly, implicitName_congr c habove, hcondition]
  by_cases hnameless : (u.name.isNone && u.attributes.isSome) = true
  · rw [if_pos hnameless, if_pos hnameless]
    refine ⟨rfl, h.attributes, h.selfClosing, h.copy,
      h.value.imp_right fun ⟨hfree, heq⟩ => ⟨?_, heq⟩⟩
    obtain ⟨htagged, hvalue | ⟨hself, hleaf, hname⟩⟩ := hfree
    · exact ⟨htagged, .inl hvalue⟩
    · have hnone : u.name = none := by simp_all
      simp only [hnone] at hname
      exact ⟨htagged, .inr ⟨hself, hleaf, _, rfl, hname.2 above'⟩⟩
  · rw [if_neg hnameless, if_neg hnameless]
    refine ⟨h.name, h.attributes, h.selfClosing, h.copy,
      h.value.imp_right fun ⟨hfree, heq⟩ => ⟨?_, heq⟩⟩
    obtain ⟨htagged, hvalue | ⟨hself, hleaf, hname⟩⟩ := hfree
    · exact ⟨htagged, .inl hvalue⟩
    · cases hu : u.name with
      | none =>
          simp only [hu] at hname
          simp [hu, hname.1] at hnameless
      | some name =>
          simp only [hu] at hname
          exact ⟨htagged, .inr ⟨hself, hleaf, name, hu, hname.2⟩⟩

theorem fillLorem_alike {σ : Type} [Random.Source σ]
    (h : t.Alike (Tag.HidesEmpty c) u)
    (habove : above.map Frame.counted = above'.map Frame.counted) (s : σ) :
    (fillLorem c above t s).1.Alike (Tag.HidesEmpty c)
      (fillLorem c above' u s).1 ∧
      (fillLorem c above t s).2 = (fillLorem c above' u s).2 := by
  have hcopy : (t.copy.or (above.findSome? (·.copy))).map Repeat.counted =
      (u.copy.or (above'.findSome? (·.copy))).map Repeat.counted := by
    rw [Option.map_or, Option.map_or, h.copy, ← findSome?_copy_map_counted,
      habove, findSome?_copy_map_counted]
  have hopens : (t.copy.or (above.findSome? (·.copy))).map
      (fun r => r.value == 0) =
      (u.copy.or (above'.findSome? (·.copy))).map (fun r => r.value == 0) := by
    have hfirst := congrArg (Option.map fun r => r.value == 0) hcopy
    rwa [Option.map_map, Option.map_map] at hfirst
  have hsome : t.copy.isSome = u.copy.isSome := by
    have hsome := congrArg Option.isSome h.copy
    rwa [Option.isSome_map, Option.isSome_map] at hsome
  have hempty : above.isEmpty = above'.isEmpty := by
    have hempty := congrArg List.isEmpty habove
    rwa [List.isEmpty_map, List.isEmpty_map] at hempty
  rw [fillLorem, fillLorem, h.name]
  cases u.name.bind Lorem.Request.ofName? with
  | none => exact ⟨h, rfl⟩
  | some request =>
      simp only [hopens, hsome, hempty, implicitName_congr c habove]
      split <;> exact ⟨⟨rfl, rfl, h.selfClosing, h.copy, .inl rfl⟩, rfl⟩

theorem dropSelect_alike (hdialect : c.dialect = .xsl)
    (h : t.Alike (Tag.HidesEmpty c) u) (hasChildren : Bool) :
    (dropSelect t hasChildren).Alike (Tag.HidesEmpty c)
      (dropSelect u hasChildren) := by
  have hcondition : ((t.name == some "xsl:variable" ||
      t.name == some "xsl:with-param") && (hasChildren || t.value.isSome)) =
      ((u.name == some "xsl:variable" || u.name == some "xsl:with-param")
        && (hasChildren || u.value.isSome)) := by
    rcases h.value with heq | ⟨⟨-, hsome | ⟨-, -, name, hname, -, hother⟩⟩, heq⟩
    · rw [h.name, heq]
    · rw [h.name, heq, hsome, Option.isSome_some]
    · obtain ⟨hvariable, hparam⟩ := hother hdialect
      have hplain : (some name == some "xsl:variable" ||
          some name == some "xsl:with-param") =
          false := by
        rw [Bool.or_eq_false_iff]
        exact ⟨beq_eq_false_iff_ne.2 (by simpa using hvariable),
          beq_eq_false_iff_ne.2 (by simpa using hparam)⟩
      rw [h.name, hname, hplain, Bool.false_and, Bool.false_and]
  rw [dropSelect, dropSelect, hcondition]
  split
  · exact h.mapAttributes _ id
  · exact h

theorem relabel_alike (h : t.Alike (Tag.HidesEmpty c) u) {ns ms : List Node}
    (hbelow : AllAlike (Tag.WillHideEmpty c) ns ms) :
    (relabel t ns).1.Alike (Tag.HidesEmpty c) (relabel u ms).1 ∧
      AllAlike (Tag.WillHideEmpty c) (relabel t ns).2 (relabel u ms).2 := by
  have hinputs : ∀ v w : Tag, v.Alike (Tag.WillHideEmpty c) w →
      (withoutVacant "id" v).Alike (Tag.WillHideEmpty c)
        (withoutVacant "id" w) :=
    fun v w hvw => hvw.mapAttributes _ (Tag.willHideEmpty_mapAttributes _)
  rw [relabel, relabel, h.name]
  split
  · rcases modifyFirstInput_alike hinputs hbelow
      with ⟨hns, hms⟩ | ⟨ns', ms', hns, hms, halike⟩
    · rw [hns, hms]
      exact ⟨h, hbelow⟩
    · rw [hns, hms]
      exact ⟨h.mapAttributes _ id, halike⟩
  · exact ⟨h, hbelow⟩

theorem withClasses_alike (h : t.Alike (Tag.HidesEmpty c) u)
    (names : List String) :
    (Bem.withClasses t names).Alike (Tag.HidesEmpty c)
      (Bem.withClasses u names) := by
  rw [Bem.withClasses, Bem.withClasses]
  split
  · exact h
  · exact h.mapAttributes _ id

theorem expandClasses_alike (h : t.Alike (Tag.HidesEmpty c) u)
    (habove : above.map Frame.counted = above'.map Frame.counted) :
    (expandClasses c above t).1.Alike (Tag.HidesEmpty c)
      (expandClasses c above' u).1 ∧
      (expandClasses c above t).2 = (expandClasses c above' u).2 := by
  have hclasses : above.map (·.classes) = above'.map (·.classes) := by
    have hclasses := congrArg (List.map (·.classes)) habove
    rwa [List.map_map, List.map_map] at hclasses
  have hown : Bem.classesOf t = Bem.classesOf u := by
    rw [Bem.classesOf, Bem.classesOf, Bem.written, Bem.written, h.find?]
  rw [expandClasses, expandClasses]
  split
  · rw [Bem.expand, Bem.expand, hown, hclasses]
    exact ⟨withClasses_alike c (withClasses_alike c h _) _, rfl⟩
  · exact ⟨h, rfl⟩

theorem selected_alike (h : t.Alike (Tag.HidesEmpty c) u) {ns ms : List Node}
    {free : Tag → Prop} (hbelow : AllAlike free ns ms) :
    (if c.dialect = .xsl then dropSelect t (!ns.isEmpty) else t).Alike
      (Tag.HidesEmpty c)
      (if c.dialect = .xsl then dropSelect u (!ms.isEmpty) else u) := by
  rw [hbelow.isEmpty]
  split
  · next hdialect => exact dropSelect_alike c hdialect h _
  · exact h

theorem frames_counted {name name' : Option String} {copy copy' : Option Repeat}
    {classes classes' : Bem.Classes} (hname : name = name')
    (hcopy : copy.map Repeat.counted = copy'.map Repeat.counted)
    (hclasses : classes = classes')
    (habove : above.map Frame.counted = above'.map Frame.counted) :
    (⟨name, copy, classes⟩ :: above).map Frame.counted =
      (⟨name', copy', classes'⟩ :: above').map Frame.counted := by
  rw [List.map_cons, List.map_cons, habove, hname, hclasses, Frame.counted,
    Frame.counted, hcopy]

end Refining

section Tree

variable (c : Config) {σ : Type} [Random.Source σ]

mutual

theorem refineNode_alike {above above' : List Frame}
    (habove : above.map Frame.counted = above'.map Frame.counted) {n m : Node}
    (h : Alike (Tag.WillHideEmpty c) n m) (s : σ) :
    Alike (Tag.HidesEmpty c)
      (refineNode c above n s).1 (refineNode c above' m s).1 ∧
      (refineNode c above n s).2 = (refineNode c above' m s).2 := by
  match n, m with
  | ⟨t, cs⟩, ⟨u, ds⟩ =>
      obtain ⟨htag, hchildren⟩ := h
      have hmerged : (mergeAttributes c (nameImplicitly c above t)).Alike
          (Tag.HidesEmpty c)
          (mergeAttributes c (nameImplicitly c above' u)) :=
        (nameImplicitly_alike c htag habove).mapAttributes _ id
      obtain ⟨hfilled, hsource⟩ := fillLorem_alike c hmerged habove s
      have hselected := selected_alike c hfilled hchildren
      obtain ⟨hlabelled, hinputs⟩ := relabel_alike c hselected hchildren
      obtain ⟨hexpanded, hclasses⟩ := expandClasses_alike c hlabelled habove
      obtain ⟨hbelow, hlast⟩ := refineNodes_alike
        (frames_counted hexpanded.name hexpanded.copy hclasses habove) hinputs
        (fillLorem c above (mergeAttributes c (nameImplicitly c above t)) s).2
      rw [refineNode, refineNode]
      dsimp only
      rw [← hsource]
      exact ⟨⟨hexpanded, hbelow⟩, hlast⟩
termination_by 2 * size n + 1
decreasing_by
  simp [size]
  omega

theorem refineNodes_alike {above above' : List Frame}
    (habove : above.map Frame.counted = above'.map Frame.counted)
    {ns ms : List Node} (h : AllAlike (Tag.WillHideEmpty c) ns ms) (s : σ) :
    AllAlike (Tag.HidesEmpty c)
      (refineNodes c above ns s).1 (refineNodes c above' ms s).1 ∧
      (refineNodes c above ns s).2 = (refineNodes c above' ms s).2 := by
  match ns, ms with
  | [], [] =>
      exact ⟨by rw [refineNodes, refineNodes]; trivial,
        by rw [refineNodes, refineNodes]⟩
  | [], _ :: _ => exact h.elim
  | _ :: _, [] => exact h.elim
  | n :: ns, m :: ms =>
      obtain ⟨hnode, hsource⟩ := refineNode_alike habove h.1 s
      obtain ⟨hrest, hsource'⟩ :=
        refineNodes_alike habove h.2 (refineNode c above n s).2
      rw [refineNodes, refineNodes]
      dsimp only
      rw [← hsource]
      exact ⟨⟨hnode, hrest⟩, hsource'⟩
termination_by 2 * sizes ns + 2
decreasing_by
  · simp only [sizes]
    omega
  · simp [sizes]
    exact size_pos _

end

end Tree

end Node

end Scaffold

import Scaffold.Proofs.Attribute.Merging
import Scaffold.Proofs.Refinement.Passes
import Scaffold.Proofs.Snippet.Precedence
/-!
Refined nodes are in order, and nodes in order are refined to themselves.  An
input within a label is the same one before and after the nodes below the label
are refined: no nameless element is called like an input, and an identifier that
is not vacant stays so when declarations are merged. Main statement:
`refine_refine`.
-/
namespace Scaffold

namespace Tag

def HasNoVacant (name : String) (t : Tag) : Prop :=
  ∀ a ∈ t.attributeList, a.hasName name = true → a.isVacant = false

def HasDistinctNames (t : Tag) : Prop :=
  (t.attributeList.filterMap (·.name)).Nodup

theorem attributeList_filter (t : Tag) (p : Attribute → Bool) :
    ({ t with attributes := t.attributes.map (·.filter p) } :
      Tag).attributeList =
      t.attributeList.filter p := by
  rw [attributeList, attributeList]
  cases t.attributes <;> rfl

theorem map_attributes_eq_self {t : Tag} {f : List Attribute → List Attribute}
    (h : f t.attributeList = t.attributeList) :
    { t with attributes := t.attributes.map f } = t := by
  cases hattributes : t.attributes with
  | none => rw [Option.map_none, ← hattributes]
  | some attributes =>
      rw [attributeList, hattributes, Option.getD_some] at h
      rw [Option.map_some, h, ← hattributes]

section

variable {name : String} {t u : Tag}

theorem HasNoVacant.of_sublist (h : t.HasNoVacant name)
    (hsub : u.attributeList.Sublist t.attributeList) : u.HasNoVacant name :=
  fun a ha => h a (hsub.subset ha)

end

end Tag

def ImplicitTags.NamesNoInput (table : ImplicitTags) : Prop :=
  table.All fun name => name ≠ "input" ∧ name ≠ "textarea"

theorem ImplicitTags.namesNoInput_html : html.NamesNoInput :=
  ⟨by decide, by decide, by decide⟩

/-- What declarations of a name come to has the value of one of them. -/
theorem Attribute.isVacant_merge {keepFirst : Bool} {name : String}
    (hclass : name ≠ "class") {declared : List Attribute}
    (h : ∀ a ∈ declared, a.hasName name = true → a.isVacant = false) :
    ∀ a ∈ merge keepFirst declared, a.hasName name = true →
    a.isVacant = false := by
  intro a ha hname
  have hdecided := (isKeyedFold_merge keepFirst declared).decided name hclass a
    (List.mem_filter.2 ⟨ha, hname⟩)
  obtain ⟨d, hd, hvalue⟩ := Option.map_eq_some_iff.1 hdecided.value
  have hmem : d ∈ declarations name declared := by
    rw [deciding?] at hd
    split at hd
    · exact List.mem_of_head? hd
    · exact List.mem_of_getLast? hd
  obtain ⟨hdeclared, hown⟩ := List.mem_filter.1 hmem
  rw [isVacant, ← hvalue, ← isVacant]
  exact h d hdeclared hown

namespace Node

/-! ### The first input -/

/-- The tag of the first input of nodes, that a label around them is for. -/
def firstInput? (ns : List Node) : Option Tag := (preorders ns).find? isInput

theorem firstInput?_cons (n : Node) (ns : List Node) :
    firstInput? (n :: ns) = (firstInput? [n]).or (firstInput? ns) := by
  rw [firstInput?, preorders_cons, List.find?_append]
  simp [firstInput?]

theorem firstInput?_mk (t : Tag) (children : List Node) :
    firstInput? [⟨t, children⟩] = if isInput t then some t
      else firstInput? children := by
  rw [firstInput?]
  cases ht : isInput t <;> simp [ht, firstInput?]

section

variable {f : Tag → Tag}

mutual

/-- A pass that changes the first input of a node fails where there is none,
leaves it the first one, and leaves the node as it is where it leaves the input
as it is. -/
theorem modifyInput_spec (hf : ∀ t, isInput (f t) = isInput t) (n : Node) :
    match firstInput? [n] with
    | none => modifyInput f n = none
    | some t =>
      ∃ m, modifyInput f n = some m ∧ firstInput? [m] = some (f t) ∧
        (f t = t → m = n) := by
  obtain ⟨u, children⟩ := n
  rw [firstInput?_mk, modifyInput]
  cases hu : isInput u with
  | true =>
      refine ⟨⟨f u, children⟩, rfl, ?_, fun heq => by rw [heq]⟩
      rw [firstInput?_mk, hf, hu]
      rfl
  | false =>
      have hbelow := modifyFirstInput_spec hf children
      simp only [Bool.false_eq_true, if_false]
      split at hbelow
      · rw [hbelow]
        rfl
      · obtain ⟨below, hmodified, hfirst, hsame⟩ := hbelow
        refine ⟨⟨u, below⟩, by rw [hmodified]; rfl, ?_,
          fun heq => by rw [hsame heq]⟩
        rw [firstInput?_mk, hu]
        exact hfirst

theorem modifyFirstInput_spec (hf : ∀ t, isInput (f t) = isInput t)
    (ns : List Node) :
    match firstInput? ns with
    | none => modifyFirstInput f ns = none
    | some t =>
      ∃ ms, modifyFirstInput f ns = some ms ∧ firstInput? ms = some (f t) ∧
        (f t = t → ms = ns) := by
  match ns with
  | [] => rfl
  | n :: ns =>
      have hn := modifyInput_spec hf n
      have hns := modifyFirstInput_spec hf ns
      rw [firstInput?_cons, modifyFirstInput]
      cases hfirst : firstInput? [n] with
      | some t =>
          rw [hfirst] at hn
          obtain ⟨m, hm, hchanged, hsame⟩ := hn
          rw [hm, Option.some_or]
          refine ⟨m :: ns, rfl, ?_, fun heq => by rw [hsame heq]⟩
          rw [firstInput?_cons, hchanged, Option.some_or]
      | none =>
          rw [hfirst] at hn
          dsimp only at hn
          rw [hn, Option.none_or]
          split at hns
          · rw [hns]
            rfl
          · obtain ⟨ms, hms, hchanged, hsame⟩ := hns
            refine ⟨n :: ms, by rw [hms]; rfl, ?_, fun heq => by rw [hsame heq]⟩
            rw [firstInput?_cons, hfirst, hchanged, Option.none_or]

end

end

section

variable (name : String) (t : Tag)

theorem sublist_withoutVacant :
    (withoutVacant name t).attributeList.Sublist t.attributeList := by
  rw [withoutVacant, Tag.attributeList_filter]
  exact List.filter_sublist

theorem hasNoVacant_withoutVacant :
    (withoutVacant name t).HasNoVacant name := by
  intro a ha hname
  rw [withoutVacant, Tag.attributeList_filter] at ha
  simpa [hname] using (List.mem_filter.1 ha).2

theorem withoutVacant_eq_self {name : String} {t : Tag}
    (h : t.HasNoVacant name) : withoutVacant name t = t := by
  refine Tag.map_attributes_eq_self (List.filter_eq_self.2 fun a ha => ?_)
  cases hname : a.hasName name with
  | false => rfl
  | true => simp [h a ha hname]

end

/-! ### Nodes in order -/

variable (c : Config)

/-- A stylesheet variable, which has content or selects it. -/
def isVariable (t : Tag) : Bool :=
  t.name == some "xsl:variable" || t.name == some "xsl:with-param"

/-- A tag as refinement leaves it, with the nodes below it. -/
structure IsInOrder (t : Tag) (children : List Node) : Prop where
  ordinary : t.IsOrdinary
  /-- An element has a name. -/
  named : t.attributes.isSome = true → t.name.isSome = true
  /-- All declarations of a name are merged. -/
  distinct : t.HasDistinctNames
  /-- A stylesheet variable with content does not also select it. -/
  select : c.dialect = .xsl → isVariable t = true →
    (!children.isEmpty || t.value.isSome) = true → ∀ a ∈ t.attributeList,
      a.hasName "select" = false
  /-- A label around an input needs no target, and the input no identifier. -/
  label : t.name = some "label" → ∀ input ∈ firstInput? children,
    t.HasNoVacant "for" ∧ input.HasNoVacant "id"

mutual

def IsSettled : Node → Prop
  | ⟨t, children⟩ => IsInOrder c t children ∧ AreSettled children

def AreSettled : List Node → Prop
  | [] => True
  | n :: ns => IsSettled n ∧ AreSettled ns

end

section Settled

variable {c : Config} {t : Tag} {children : List Node}

theorem nameImplicitly_of_isInOrder (h : IsInOrder c t children)
    (above : List Frame) : nameImplicitly c above t = t := by
  rw [nameImplicitly, if_neg]
  intro hnameless
  obtain ⟨hname, hattributes⟩ := Bool.and_eq_true_iff.1 hnameless
  have hnamed := h.named hattributes
  rw [← Option.not_isSome, hnamed] at hname
  cases hname

theorem dropSelect_of_isInOrder (h : IsInOrder c t children)
    (hdialect : c.dialect = .xsl) : dropSelect t (!children.isEmpty) = t := by
  rw [dropSelect]
  split
  · next hcond =>
      obtain ⟨hvariable, hcontent⟩ := Bool.and_eq_true_iff.1 hcond
      have hselect := h.select hdialect hvariable hcontent
      exact Tag.map_attributes_eq_self
        (List.filter_eq_self.2 fun a ha => by simp [hselect a ha])
  · rfl

theorem ordered_of_isInOrder (h : IsInOrder c t children) (above : List Frame) :
    ordered c above t (!children.isEmpty) = t := by
  have hmerged : mergeAttributes c t = t :=
    Tag.map_attributes_eq_self (Attribute.merge_eq_self h.distinct)
  rw [ordered, nameImplicitly_of_isInOrder h, hmerged]
  split
  · next hdialect => exact dropSelect_of_isInOrder h hdialect
  · rfl

theorem relabel_of_isInOrder (h : IsInOrder c t children) :
    relabel t children = (t, children) := by
  rw [relabel]
  split
  · next hname =>
      have hlabel := h.label (beq_iff_eq.1 hname)
      have hinput :=
        modifyFirstInput_spec (f := withoutVacant "id") (fun _ => rfl) children
      split at hinput
      · rw [hinput]
      · next input hfirst =>
          obtain ⟨hfor, hid⟩ := hlabel input hfirst
          obtain ⟨below, hbelow, -, hsame⟩ := hinput
          rw [hbelow]
          simp only [withoutVacant_eq_self hfor,
            hsame (withoutVacant_eq_self hid)]
  · rfl

end Settled

theorem expandClasses_of_disabled {c : Config}
    (hbem : c.options.bem.enabled = false) (above : List Frame) (t : Tag) :
    expandClasses c above t = (t, {}) := by
  rw [expandClasses, if_neg (by simp [hbem])]

section Refining

variable {σ : Type} [Random.Source σ] {c : Config}

/-- Without class expansion a node gets the tag and the nodes that labelling
leaves it. -/
theorem refineNode_of_disabled (hbem : c.options.bem.enabled = false)
    (table : c.implicitTags.All Lorem.IsOrdinary) (above : List Frame) {t : Tag}
    (ht : t.IsOrdinary) (children : List Node) (s : σ) :
    refineNode c above ⟨t, children⟩ s =
      let labelled := relabel (ordered c above t (!children.isEmpty)) children
      let below := refineNodes c
        (⟨labelled.1.name, labelled.1.copy, {}⟩ :: above) labelled.2 s
      (⟨labelled.1, below.1⟩, below.2) := by
  rw [refineNode_eq above table ht]
  simp only [expandClasses_of_disabled hbem]

mutual

/-- A node in order is refined to itself, and nothing is drawn for it. -/
theorem refineNode_of_isSettled (hbem : c.options.bem.enabled = false)
    (table : c.implicitTags.All Lorem.IsOrdinary) (above : List Frame)
    {n : Node} (h : IsSettled c n) (s : σ) :
    refineNode c above n s = (n, s) := by
  match n with
  | ⟨t, children⟩ =>
      obtain ⟨horder, hchildren⟩ := h
      rw [refineNode_of_disabled hbem table above horder.ordinary,
        ordered_of_isInOrder horder, relabel_of_isInOrder horder]
      simp only [refineNodes_of_areSettled hbem table _ hchildren]

theorem refineNodes_of_areSettled (hbem : c.options.bem.enabled = false)
    (table : c.implicitTags.All Lorem.IsOrdinary) (above : List Frame)
    {ns : List Node} (h : AreSettled c ns) (s : σ) :
    refineNodes c above ns s = (ns, s) := by
  match ns with
  | [] => rw [refineNodes]
  | n :: ns =>
      obtain ⟨hn, hns⟩ := h
      rw [refineNodes, refineNode_of_isSettled hbem table above hn]
      simp only [refineNodes_of_areSettled hbem table above hns]

end

/-! ### Inputs of refined nodes -/

theorem isInput_nameImplicitly (names : c.implicitTags.NamesNoInput)
    (above : List Frame) (t : Tag) :
    isInput (nameImplicitly c above t) = isInput t := by
  obtain ⟨hinput, htextarea⟩ := of_implicitName above names
  rw [nameImplicitly]
  split
  · next hnameless =>
      obtain ⟨hname, -⟩ := Bool.and_eq_true_iff.1 hnameless
      rw [Option.isNone_iff_eq_none] at hname
      simp [isInput, hname, hinput, htextarea]
  · rfl

theorem isInput_ordered (names : c.implicitTags.NamesNoInput)
    (above : List Frame) (t : Tag) (hasChildren : Bool) :
    isInput (ordered c above t hasChildren) = isInput t := by
  rw [← isInput_nameImplicitly names above t, isInput,
    (sameButAttributes_ordered c above t hasChildren).name, isInput]

theorem sublist_ordered (c : Config) (above : List Frame) (t : Tag)
    (hasChildren : Bool) :
    (ordered c above t hasChildren).attributeList.Sublist
      (Attribute.merge c.options.reverseAttributes t.attributeList) := by
  have hnamed : (nameImplicitly c above t).attributeList = t.attributeList := by
    rw [nameImplicitly]
    split <;> rfl
  rw [← hnamed, ← Snippet.attributeList_mergeAttributes, ordered, dropSelect]
  split
  · split
    · rw [Tag.attributeList_filter]
      exact List.filter_sublist
    · exact List.Sublist.refl _
  · exact List.Sublist.refl _

theorem sublist_relabel (t : Tag) (children : List Node) :
    (relabel t children).1.attributeList.Sublist t.attributeList := by
  rw [relabel]
  split
  · split
    · exact sublist_withoutVacant "for" t
    · exact List.Sublist.refl _
  · exact List.Sublist.refl _

theorem hasNoVacant_ordered {name : String} (hclass : name ≠ "class") {t : Tag}
    (h : t.HasNoVacant name) (above : List Frame) (hasChildren : Bool) :
    (ordered c above t hasChildren).HasNoVacant name := by
  intro a ha
  exact Attribute.isVacant_merge hclass h a
    ((sublist_ordered c above t hasChildren).subset ha)

/-- Where there was an input there still is one, without a vacant identifier if
it had none. -/
def KeepsInput : Option Tag → Option Tag → Prop :=
  Option.Rel fun t u => t.HasNoVacant "id" → u.HasNoVacant "id"

theorem KeepsInput.or {a b d e : Option Tag} (h : KeepsInput a b)
    (h' : KeepsInput d e) : KeepsInput (a.or d) (b.or e) := by
  cases h with
  | none => exact h'
  | some h => exact .some h

theorem KeepsInput.trans {a b d : Option Tag} (h : KeepsInput a b)
    (h' : KeepsInput b d) : KeepsInput a d := by
  cases h with
  | none => exact h'
  | some h =>
      cases h' with
      | some h' => exact .some (h' ∘ h)

theorem keepsInput_relabel (t : Tag) (children : List Node) :
    KeepsInput (firstInput? children) (firstInput? (relabel t children).2) := by
  have hrefl : ∀ input : Option Tag, KeepsInput input input := by
    intro input
    cases input with
    | none => exact .none
    | some input => exact .some id
  rw [relabel]
  split
  · have hinput :=
      modifyFirstInput_spec (f := withoutVacant "id") (fun _ => rfl) children
    split at hinput
    · rw [hinput]
      exact hrefl _
    · next input hfirst =>
        obtain ⟨below, hbelow, hchanged, -⟩ := hinput
        rw [hbelow, hfirst]
        dsimp only
        rw [hchanged]
        exact .some fun h => h.of_sublist (sublist_withoutVacant "id" input)
  · exact hrefl _

mutual

theorem keepsInput_refineNode (hbem : c.options.bem.enabled = false)
    (table : c.implicitTags.All Lorem.IsOrdinary)
    (names : c.implicitTags.NamesNoInput) (above : List Frame) {n : Node}
    (h : AllTags Tag.IsOrdinary [n]) (s : σ) :
    KeepsInput (firstInput? [n])
      (firstInput? [(refineNode c above n s).1]) := by
  match n with
  | ⟨t, children⟩ =>
      obtain ⟨ht, hchildren, -⟩ : t.IsOrdinary ∧
          AllTags Tag.IsOrdinary children ∧ _ :=
        allTags_cons.1 h
      have hbelow :=
        isOrdinary_relabel (ordered c above t (!children.isEmpty)) hchildren
      have hname :=
        (sameButAttributes_relabel (ordered c above t (!children.isEmpty))
          children).name
      have hinput :
          isInput (relabel (ordered c above t (!children.isEmpty)) children).1 =
          isInput t := by
        rw [isInput, hname, ← isInput, isInput_ordered names]
      rw [refineNode_of_disabled hbem table above ht, firstInput?_mk,
        firstInput?_mk, hinput]
      split
      · refine .some fun hvacant => ?_
        have hordered := hasNoVacant_ordered (c := c) (by decide) hvacant above
          (!children.isEmpty)
        exact hordered.of_sublist (sublist_relabel _ children)
      · exact (keepsInput_relabel _ children).trans
          (keepsInput_refineNodes hbem table names _ hbelow s)
termination_by 2 * size n + 1
decreasing_by
  simp [size]
  omega

theorem keepsInput_refineNodes (hbem : c.options.bem.enabled = false)
    (table : c.implicitTags.All Lorem.IsOrdinary)
    (names : c.implicitTags.NamesNoInput) (above : List Frame) {ns : List Node}
    (h : AllTags Tag.IsOrdinary ns) (s : σ) :
    KeepsInput (firstInput? ns) (firstInput? (refineNodes c above ns s).1) := by
  match ns with
  | [] =>
      rw [refineNodes]
      exact .none
  | n :: ns =>
      obtain ⟨hn, hns⟩ := allTags_cons_iff.1 h
      rw [refineNodes, firstInput?_cons,
        firstInput?_cons (refineNode c above n s).1]
      exact (keepsInput_refineNode hbem table names above hn s).or
        (keepsInput_refineNodes hbem table names above hns _)
termination_by 2 * sizes ns + 2
decreasing_by
  · simp only [sizes]
    omega
  · simp [sizes]
    exact size_pos _

end

/-! ### Refined nodes -/

theorem named_nameImplicitly (above : List Frame) (t : Tag) :
    (nameImplicitly c above t).attributes.isSome = true →
      (nameImplicitly c above t).name.isSome = true := by
  rw [nameImplicitly]
  split
  · exact fun _ => rfl
  · next hnamed =>
      intro hattributes
      cases hname : t.name with
      | some name => rfl
      | none => simp [hname, hattributes] at hnamed

theorem select_ordered {above : List Frame} {t : Tag} {hasChildren : Bool}
    (hdialect : c.dialect = .xsl)
    (hvariable : isVariable (ordered c above t hasChildren) = true)
    (hcontent :
      (hasChildren || (ordered c above t hasChildren).value.isSome) = true) :
    ∀ a ∈ (ordered c above t hasChildren).attributeList,
    a.hasName "select" = false := by
  have hsame :=
    sameButAttributes_dropSelect (mergeAttributes c (nameImplicitly c above t))
      hasChildren
  rw [ordered, if_pos hdialect] at hvariable hcontent ⊢
  rw [isVariable, hsame.name, ← isVariable] at hvariable
  rw [hsame.value] at hcontent
  intro a ha
  rw [dropSelect, ← isVariable, hvariable, hcontent, Bool.and_self, if_pos rfl,
    Tag.attributeList_filter] at ha
  simpa using (List.mem_filter.1 ha).2

theorem label_relabel {t : Tag} (hname : t.name = some "label")
    {children : List Node} :
    ∀ input ∈ firstInput? (relabel t children).2,
      (relabel t children).1.HasNoVacant "for" ∧ input.HasNoVacant "id" := by
  rw [relabel, if_pos (beq_iff_eq.2 hname)]
  have hinput :=
    modifyFirstInput_spec (f := withoutVacant "id") (fun _ => rfl) children
  split at hinput
  · next hfirst =>
      rw [hinput]
      dsimp only
      rw [hfirst]
      rintro input ⟨⟩
  · next first hfirst =>
      obtain ⟨below, hbelow, hchanged, -⟩ := hinput
      rw [hbelow]
      dsimp only
      rw [hchanged]
      rintro input ⟨⟩
      exact ⟨hasNoVacant_withoutVacant "for" t,
        hasNoVacant_withoutVacant "id" first⟩

theorem isEmpty_refineNodes (above : List Frame) (ns : List Node) (s : σ) :
    (refineNodes c above ns s).1.isEmpty = ns.isEmpty := by
  cases ns with
  | nil => rw [refineNodes]
  | cons n ns =>
      rw [refineNodes]
      rfl

theorem isEmpty_relabel (t : Tag) (children : List Node) :
    (relabel t children).2.isEmpty = children.isEmpty := by
  have hsizes := sizes_relabel t children
  cases hlabelled : (relabel t children).2 with
  | nil =>
      cases children with
      | nil => rfl
      | cons n ns =>
          have hpos := size_pos n
          rw [hlabelled, sizes, sizes] at hsizes
          omega
  | cons m ms =>
      cases children with
      | nil =>
          have hpos := size_pos m
          rw [hlabelled, sizes, sizes] at hsizes
          omega
      | cons n ns => rfl

/-- A tag that has gone through all passes is in order with the nodes below it,
once these are refined. -/
theorem isInOrder_relabel (hbem : c.options.bem.enabled = false)
    (table : c.implicitTags.All Lorem.IsOrdinary)
    (names : c.implicitTags.NamesNoInput)
    (above around : List Frame) {t : Tag} (ht : t.IsOrdinary)
    {children : List Node}
    (hchildren : AllTags Tag.IsOrdinary children) (s : σ) :
    let labelled := relabel (ordered c above t (!children.isEmpty)) children
    IsInOrder c labelled.1 (refineNodes c around labelled.2 s).1 := by
  intro labelled
  have hordered := sameButAttributes_ordered c above t (!children.isEmpty)
  have hlabelled : (ordered c above t (!children.isEmpty)).SameButAttributes
      labelled.1 :=
    sameButAttributes_relabel _ children
  have hsub : labelled.1.attributeList.Sublist
      (ordered c above t (!children.isEmpty)).attributeList :=
        sublist_relabel _ children
  have hbelow : AllTags Tag.IsOrdinary labelled.2 :=
    isOrdinary_relabel _ hchildren
  constructor
  · exact (hordered.trans hlabelled).isOrdinary
      (isOrdinary_nameImplicitly above table ht)
  · rw [(hordered.trans hlabelled).attributes, (hordered.trans hlabelled).name]
    exact named_nameImplicitly above t
  · have hmerged :=
      (Attribute.isKeyedFold_merge c.options.reverseAttributes
        t.attributeList).distinct
    exact ((hsub.trans (sublist_ordered c above t _)).filterMap _).nodup hmerged
  · intro hdialect hvariable hcontent a ha
    rw [isVariable, hlabelled.name, ← isVariable] at hvariable
    rw [isEmpty_refineNodes, isEmpty_relabel, hlabelled.value] at hcontent
    exact select_ordered hdialect hvariable hcontent a (hsub.subset ha)
  · intro hname input hinput
    have hkept := keepsInput_refineNodes hbem table names around hbelow s
    rw [Option.mem_def.1 hinput] at hkept
    cases hfirst : firstInput? labelled.2 with
    | none =>
        rw [hfirst] at hkept
        cases hkept
    | some first =>
        rw [hfirst] at hkept
        obtain ⟨hfor, hid⟩ :=
          label_relabel (hlabelled.name.symm.trans hname) first hfirst
        cases hkept with
        | some hkept => exact ⟨hfor, hkept hid⟩

mutual

theorem isSettled_refineNode (hbem : c.options.bem.enabled = false)
    (table : c.implicitTags.All Lorem.IsOrdinary)
    (names : c.implicitTags.NamesNoInput) (above : List Frame) {n : Node}
    (h : AllTags Tag.IsOrdinary [n]) (s : σ) :
    IsSettled c (refineNode c above n s).1 := by
  match n with
  | ⟨t, children⟩ =>
      obtain ⟨ht, hchildren, -⟩ : t.IsOrdinary ∧
          AllTags Tag.IsOrdinary children ∧ _ :=
        allTags_cons.1 h
      have hbelow :=
        isOrdinary_relabel (ordered c above t (!children.isEmpty)) hchildren
      rw [refineNode_of_disabled hbem table above ht]
      exact ⟨isInOrder_relabel hbem table names above _ ht hchildren s,
        areSettled_refineNodes hbem table names _ hbelow s⟩
termination_by 2 * size n + 1
decreasing_by
  simp [size]
  omega

/-- All nodes are in order once they are refined. -/
theorem areSettled_refineNodes (hbem : c.options.bem.enabled = false)
    (table : c.implicitTags.All Lorem.IsOrdinary)
    (names : c.implicitTags.NamesNoInput) (above : List Frame) {ns : List Node}
    (h : AllTags Tag.IsOrdinary ns) (s : σ) :
    AreSettled c (refineNodes c above ns s).1 := by
  match ns with
  | [] =>
      rw [refineNodes]
      trivial
  | n :: ns =>
      obtain ⟨hn, hns⟩ := allTags_cons_iff.1 h
      rw [refineNodes]
      exact ⟨isSettled_refineNode hbem table names above hn s,
        areSettled_refineNodes hbem table names above hns _⟩
termination_by 2 * sizes ns + 2
decreasing_by
  · simp only [sizes]
    omega
  · simp [sizes]
    exact size_pos _

end

end Refining

/-- With the table for hypertext and without class expansion, refined nodes are
in order, and refining them once more changes nothing. -/
theorem refine_refine {c : Config} (hbem : c.options.bem.enabled = false)
    (htags : c.implicitTags = ImplicitTags.html) {nodes : List Node}
    (ordinary : AllTags Tag.IsOrdinary nodes) :
    AreSettled c (refine c nodes) ∧ refine c (refine c nodes) =
      refine c nodes := by
  have table : c.implicitTags.All Lorem.IsOrdinary :=
    htags ▸ ImplicitTags.isOrdinary_html
  have names : c.implicitTags.NamesNoInput :=
    htags ▸ ImplicitTags.namesNoInput_html
  have hsettled : AreSettled c (refine c nodes) :=
    areSettled_refineNodes hbem table names [] ordinary _
  refine ⟨hsettled, ?_⟩
  conv_lhs => rw [refine]
  rw [refineNodes_of_areSettled hbem table [] hsettled]

namespace SettlingWitness

/-- Stylesheets, without snippets. -/
def config : Config := { dialect := .xsl, snippets := {} }

def declared (name text : String) : Attribute :=
  { name := some name, value := some [.text text] }

/-- A label around a nameless element around an input; declarations are to be
merged, and the target and the identifier are vacant. -/
def tree : List Node :=
  [⟨{ name := some "label"
      attributes := some [{ name := some "for" }, declared "class" "a",
        declared "class" "b"] },
    [⟨{ attributes := some [] },
      [⟨{ name := some "input"
          attributes := some [{ name := some "id" }, declared "type" "text",
            declared "type" "radio"] }, []⟩]⟩]⟩]

/-- The same nodes in order. -/
def settled : List Node :=
  [⟨{ name := some "label", attributes := some [declared "class" "a b"] },
    [⟨{ name := some "span", attributes := some [] },
        [⟨{ name := some "input",
            attributes := some [declared "type" "radio"] }, []⟩]⟩]⟩]

theorem refine_tree : refine config tree = settled := by
  have hinner : implicitName config [{ name := some "label" }] = "span" := by
    decide +kernel
  have hlabel : Lorem.Request.ofName? "label" = none := by decide
  have hspan : Lorem.Request.ofName? "span" = none := by decide
  have hinput : Lorem.Request.ofName? "input" = none := by decide
  rw [config] at hinner
  simp [refine, tree, refineNodes, refineNode, nameImplicitly, mergeAttributes,
    fillLorem, relabel, dropSelect, expandClasses, config, hinner, hlabel,
    hspan, hinput, modifyFirstInput, modifyInput, isInput, withoutVacant]
  rfl

/-- A label, the element in it and the input in that are all changed once, and
then no more. -/
theorem refine_refine_label :
    (config.options.bem.enabled = false ∧
      config.implicitTags = ImplicitTags.html ∧
        AllTags Tag.IsOrdinary tree) ∧
      AreSettled config (refine config tree) ∧ refine config tree = settled ∧
      refine config settled = settled := by
  have ordinary : AllTags Tag.IsOrdinary tree := by
    rw [AllTags]
    decide
  obtain ⟨hsettled, hagain⟩ := refine_refine (c := config) rfl rfl ordinary
  rw [refine_tree] at hagain
  exact ⟨⟨rfl, rfl, ordinary⟩, hsettled, refine_tree, hagain⟩

end SettlingWitness

end Node

end Scaffold

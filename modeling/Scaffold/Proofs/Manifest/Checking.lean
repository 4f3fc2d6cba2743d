import Scaffold.Proofs.Data.Records
/-!
The check of a manifest and what it is good for.  It reports the first thing
that is missing, in the order of the document.  A document that passes and can
be read stands for one request for each of its components, and these have names
and directories.  Main statement: `checked_requests`.
-/
namespace Scaffold

namespace Data

/-- There is something under a name: not nothing, an empty text or a plain
no. -/
def Says (d : Data) (name : String) : Prop :=
  ∃ v, d.get? name = some v ∧ v ≠ null ∧ v ≠ text "" ∧ v ≠ bool false

theorem isPresent_iff {v : Data} :
    v.isPresent = true ↔ v ≠ null ∧ v ≠ text "" ∧ v ≠ bool false := by
  cases v with
  | text s => simp [isPresent]
  | bool b => cases b <;> simp [isPresent]
  | _ => simp [isPresent]

theorem says_iff {d : Data} {name : String} :
    d.Says name ↔ ((d.get? name).filter (·.isPresent)).isSome = true := by
  rw [Option.isSome_iff_exists]
  simp only [Says, Option.filter_eq_some_iff, isPresent_iff]

end Data

namespace Manifest

/-- A component with a name and a directory for its files. -/
structure IsUsable (component : Data) : Prop where
  name : component.Says "name"
  directory : ∃ output, component.get? "output" = some output ∧
    output.Says "directory"

/-- What the check of a document says, if it does not pass. -/
def complaint? (d : Data) : Option String := (fault? d).map Fault.message

/-- The first thing that a document lacks is the one that is reported. -/
structure IsChecked (d : Data) : Prop where
  empty : complaint? d = some "Document is empty" ↔ d = .null
  components : d ≠ .null →
    (complaint? d = some "\"components\" must be an array" ↔
      ∀ components, d.get? "components" ≠ some (.list components))
  /-- There is a list, which is empty. -/
  one : ∀ components, d.get? "components" = some (.list components) →
    (complaint? d = some "At least one component must be defined" ↔
      components = [])
  /-- A list that is not empty is reported exactly if some component of it
  cannot be used. -/
  usable : ∀ components, d.get? "components" = some (.list components) →
    components ≠ [] →
    (complaint? d ≠ none ↔ ∃ component ∈ components, ¬ IsUsable component)
  /-- The first such component has no name. -/
  name : ∀ components, d.get? "components" = some (.list components) →
    ∀ front component rest, components = front ++ component :: rest →
      (∀ earlier ∈ front, IsUsable earlier) → ¬ component.Says "name" →
      complaint? d =
        some ("Component at index " ++ Numeral.text front.length ++
          " missing \"name\"")
  /-- The first such component has a name, so it is the directory that is
  missing. -/
  directory : ∀ components, d.get? "components" = some (.list components) →
    ∀ front component rest, components = front ++ component :: rest →
      (∀ earlier ∈ front, IsUsable earlier) → ¬ IsUsable component →
      ∀ name, component.get? "name" = some name → component.Says "name" →
        complaint? d =
          some ("Component \"" ++ name.display ++ "\" missing output directory")

/-! ### One component -/

section Component

variable {component name : Data} {index : Nat}

theorem componentFault?_of_nameless (h : ¬ component.Says "name") :
    componentFault? index component = some (.missingName index) := by
  rw [Data.says_iff, Bool.not_eq_true, Option.isSome_eq_false_iff,
    Option.isNone_iff_eq_none] at h
  rw [componentFault?, h]

theorem componentFault?_of_named (hname : component.get? "name" = some name)
    (hmessage : component.Says "name") :
    componentFault? index component =
      if (((component.get? "output").bind (·.get? "directory")).filter
        (·.isPresent)).isSome then
        none
      else some (.missingDirectory name.display) := by
  obtain ⟨v, hv, hpresent⟩ := hmessage
  obtain rfl : v = name := Option.some.inj (hv.symm.trans hname)
  have hfilter : (component.get? "name").filter (·.isPresent) = some v :=
    Option.filter_eq_some_iff.2 ⟨hv, Data.isPresent_iff.2 hpresent⟩
  rw [componentFault?, hfilter]

theorem exists_directory_iff :
    (∃ output, component.get? "output" = some output ∧
      output.Says "directory") ↔
      (((component.get? "output").bind (·.get? "directory")).filter
        (·.isPresent)).isSome := by
  cases component.get? "output" with
  | none => simp
  | some output => simp [Data.says_iff]

theorem componentFault?_of_unlocated (hname : component.get? "name" = some name)
    (hmessage : component.Says "name") (h : ¬ IsUsable component) :
    componentFault? index component =
      some (.missingDirectory name.display) := by
  rw [componentFault?_of_named hname hmessage, if_neg]
  exact fun hdirectory => h ⟨hmessage, exists_directory_iff.2 hdirectory⟩

theorem componentFault?_eq_none_iff :
    componentFault? index component = none ↔ IsUsable component := by
  constructor
  · intro h
    have hmessage : component.Says "name" := by
      by_contra hnameless
      rw [componentFault?_of_nameless hnameless] at h
      cases h
    obtain ⟨name, hname, -⟩ := id hmessage
    by_contra hunusable
    rw [componentFault?_of_unlocated hname hmessage hunusable] at h
    cases h
  · intro h
    obtain ⟨name, hname, -⟩ := h.name
    rw [componentFault?_of_named hname h.name,
      if_pos (exists_directory_iff.1 h.directory)]

/-- The wording of a component's fault is unlike that of any other. -/
theorem head?_message {fault : Fault}
    (h : componentFault? index component = some fault) :
    fault.message.toList.head? = some 'C' := by
  have hfront : ∀ s t u : String, s.toList.head? = some 'C' →
      (s ++ t ++ u).toList.head? = some 'C' := by
    intro s t u hs
    rw [String.toList_append, String.toList_append, List.append_assoc,
      List.head?_append, hs]
    rfl
  by_cases hmessage : component.Says "name"
  · obtain ⟨name, hname, -⟩ := id hmessage
    by_cases husable : IsUsable component
    · rw [componentFault?_eq_none_iff.2 husable] at h
      cases h
    · rw [componentFault?_of_unlocated hname hmessage husable] at h
      obtain rfl := Option.some.inj h
      exact hfront "Component \"" name.display "\" missing output directory"
        (by decide)
  · rw [componentFault?_of_nameless hmessage] at h
    obtain rfl := Option.some.inj h
    exact hfront "Component at index " (Numeral.text index) " missing \"name\""
      (by decide)

end Component

/-! ### All components -/

theorem componentsFault?_eq_none_iff (index : Nat) (components : List Data) :
    componentsFault? index components = none ↔
    ∀ component ∈ components, IsUsable component := by
  induction components generalizing index with
  | nil => simp [componentsFault?]
  | cons component components ih =>
      rw [componentsFault?, Option.or_eq_none_iff, componentFault?_eq_none_iff,
        ih, List.forall_mem_cons]

/-- Usable components are passed over, and counted. -/
theorem componentsFault?_append (index : Nat) {front : List Data}
    (h : ∀ earlier ∈ front, IsUsable earlier) (rest : List Data) :
    componentsFault? index (front ++ rest) =
      componentsFault? (index + front.length) rest := by
  induction front generalizing index with
  | nil => rfl
  | cons component front ih =>
      obtain ⟨hfirst, hfront⟩ := List.forall_mem_cons.1 h
      rw [List.cons_append, componentsFault?, componentFault?_eq_none_iff.2
        hfirst, Option.none_or, ih (index + 1) hfront, List.length_cons]
      congr 1
      omega

theorem head?_message_of_componentsFault? {index : Nat} {components : List Data}
    {fault : Fault} (h : componentsFault? index components = some fault) :
    fault.message.toList.head? = some 'C' := by
  induction components generalizing index with
  | nil => cases h
  | cons component components ih =>
      rw [componentsFault?] at h
      rcases Option.or_eq_some_iff.1 h with hfirst | ⟨-, hrest⟩
      · exact head?_message hfirst
      · exact ih hrest

/-! ### The document -/

section Document

variable {d : Data} {components : List Data}

theorem complaint?_of_forall (hnull : d ≠ .null)
    (h : ∀ components, d.get? "components" ≠ some (.list components)) :
    complaint? d = some "\"components\" must be an array" := by
  rw [complaint?, fault?]
  · split
    · next heq => exact absurd heq (h [])
    · next components _ heq => exact absurd heq (h components)
    · rfl
  · exact hnull

theorem ne_null_of_get? {v : Data} {name : String} (h : d.get? name = some v) :
    d ≠ .null := by
  rintro rfl
  cases h

theorem complaint?_of_nil (h : d.get? "components" = some (.list [])) :
    complaint? d = some "At least one component must be defined" := by
  rw [complaint?, fault?, h]
  · rfl
  · exact ne_null_of_get? h

theorem complaint?_of_ne_nil (h : d.get? "components" = some (.list components))
    (hne : components ≠ []) :
    complaint? d = (componentsFault? 0 components).map Fault.message := by
  rw [complaint?, fault?, h]
  · cases components with
    | nil => exact absurd rfl hne
    | cons component rest => rfl
  · exact ne_null_of_get? h

/-- What is said of components is said of nothing else. -/
theorem head?_complaint? (h : d.get? "components" = some (.list components))
    (hne : components ≠ []) {s : String} (hs : complaint? d = some s) :
    s.toList.head? = some 'C' := by
  rw [complaint?_of_ne_nil h hne] at hs
  obtain ⟨fault, hfault, rfl⟩ := Option.map_eq_some_iff.1 hs
  exact head?_message_of_componentsFault? hfault

theorem complaint?_of_first (h : d.get? "components" = some (.list components))
    {front rest : List Data} {component : Data}
    (hsplit : components = front ++ component :: rest)
    (hfront : ∀ earlier ∈ front, IsUsable earlier) {fault : Fault}
    (hfault : componentFault? front.length component = some fault) :
    complaint? d = some fault.message := by
  have hne : components ≠ [] := by simp [hsplit]
  rw [complaint?_of_ne_nil h hne, hsplit, componentsFault?_append 0 hfront,
    Nat.zero_add, componentsFault?, hfault]
  rfl

theorem isChecked (d : Data) : IsChecked d where
  empty := by
    constructor
    · intro h
      by_contra hnull
      by_cases hlist : ∃ components, d.get? "components" =
        some (.list components)
      · obtain ⟨components, hcomponents⟩ := hlist
        by_cases hne : components = []
        · rw [hne] at hcomponents
          rw [complaint?_of_nil hcomponents] at h
          simp at h
        · exact absurd (head?_complaint? hcomponents hne h) (by decide)
      · rw [complaint?_of_forall hnull (not_exists.1 hlist)] at h
        simp at h
    · rintro rfl
      rfl
  components := by
    intro hnull
    constructor
    · intro h components hcomponents
      by_cases hne : components = []
      · rw [hne] at hcomponents
        rw [complaint?_of_nil hcomponents] at h
        simp at h
      · exact absurd (head?_complaint? hcomponents hne h) (by decide)
    · exact complaint?_of_forall hnull
  one := by
    intro components hcomponents
    constructor
    · intro h
      by_contra hne
      exact absurd (head?_complaint? hcomponents hne h) (by decide)
    · rintro rfl
      exact complaint?_of_nil hcomponents
  usable := by
    intro components hcomponents hne
    rw [complaint?_of_ne_nil hcomponents hne, ne_eq, Option.map_eq_none_iff,
      componentsFault?_eq_none_iff]
    push Not
    rfl
  name := by
    intro components hcomponents front component rest hsplit hfront hnameless
    exact complaint?_of_first hcomponents hsplit hfront
      (componentFault?_of_nameless hnameless)
  directory := by
    intro components hcomponents front component rest hsplit hfront hunusable
      name hname hmessage
    exact complaint?_of_first hcomponents hsplit hfront
      (componentFault?_of_unlocated hname hmessage hunusable)

end Document

/-! ### What passes the check -/

/-- A request is for a component: it has the name of the component, which is not
empty, and its directory, which is not empty either, unless another one takes
its place. -/
structure IsFor (o : Overrides) (component : Data)
    (r : Scaffold.Component.Request) : Prop where
  name : component.get? "name" = some (.text r.name) ∧ r.name ≠ ""
  directory : ∃ output directory, component.get? "output" = some output ∧
    output.get? "directory" = some (.text directory) ∧ directory ≠ "" ∧
    r.directory = o.directory.getD directory

section Reading

variable {d v : Data}

/-- A field that has to be there is read from what is found under its name. -/
theorem read_of_required? {α : Type} {read : Data → Option α}
    {names : List String} {fields : List (Option Data)}
    (hrecord : record? names d = some fields) {name : String}
    {field : Option Data} (hfield : (name, field) ∈ names.zip fields) {x : α}
    (hx : required? read field = some x) (hget : d.get? name = some v) :
    read v = some x := by
  obtain ⟨w, rfl, hread⟩ := Option.bind_eq_some_iff.1 hx
  obtain rfl := Data.eq_of_asRecord? hrecord hfield hget
  exact hread

theorem Output.directory_of_ofData? {output : Output}
    (h : Output.ofData? d = some output) (hget : d.get? "directory" = some v) :
    v.asText? = some output.directory := by
  rw [Output.ofData?] at h
  obtain ⟨fields, hfields, h⟩ := Option.bind_eq_some_iff.1 h
  split at h
  · obtain ⟨directory, hdirectory, h⟩ := Option.bind_eq_some_iff.1 h
    obtain ⟨style, -, h⟩ := Option.bind_eq_some_iff.1 h
    obtain rfl := Option.some.inj h
    exact read_of_required? hfields (by simp) hdirectory hget
  · cases h

/-- The name and the output of a component are read from what is found under
their names. -/
theorem Component.name_output_of_ofData? {c : Manifest.Component}
    (h : Component.ofData? d = some c) {output : Data}
    (hname : d.get? "name" = some v) (houtput : d.get? "output" = some output) :
    v.asText? = some c.name ∧ Output.ofData? output = some c.output := by
  rw [Component.ofData?] at h
  obtain ⟨fields, hfields, h⟩ := Option.bind_eq_some_iff.1 h
  split at h
  · obtain ⟨name, hreadName, h⟩ := Option.bind_eq_some_iff.1 h
    obtain ⟨language, -, h⟩ := Option.bind_eq_some_iff.1 h
    obtain ⟨out, hreadOutput, h⟩ := Option.bind_eq_some_iff.1 h
    simp only [Option.bind_eq_bind, Option.bind_eq_some_iff, Option.pure_def,
      Option.some.injEq] at h
    obtain ⟨props, -, markup, -, hooks, -, effects, -, imports, -, rfl⟩ := h
    exact ⟨read_of_required? hfields (by simp) hreadName hname,
      read_of_required? hfields (by simp) hreadOutput houtput⟩
  · cases h

theorem components_of_ofData? {m : Manifest} (h : ofData? d = some m)
    (hget : d.get? "components" = some v) :
    v.asListOf? .values Component.ofData? = some m.components := by
  rw [ofData?] at h
  obtain ⟨fields, hfields, h⟩ := Option.bind_eq_some_iff.1 h
  split at h
  · obtain ⟨components, hcomponents, h⟩ := Option.bind_eq_some_iff.1 h
    obtain ⟨settings, -, h⟩ := Option.bind_eq_some_iff.1 h
    obtain rfl := Option.some.inj h
    exact read_of_required? hfields (by simp) hcomponents hget
  · cases h

/-- What the check finds to be there is what the reading relies on. -/
theorem isFor_request (decided : d.isDecided = true) (usable : IsUsable d)
    {c : Manifest.Component} (h : Component.ofData? d = some c)
    (defaults : Defaults) (o : Overrides) :
    IsFor o d (c.request defaults o) := by
  obtain ⟨name, hname, -, hnonempty, -⟩ := usable.name
  obtain ⟨output, houtput, directory, hdirectory, -, hlocated, -⟩ :=
    usable.directory
  obtain ⟨hreadName, hreadOutput⟩ :=
    Component.name_output_of_ofData? h hname houtput
  have hreadDirectory := Output.directory_of_ofData? hreadOutput hdirectory
  have decidedOutput := Data.isDecided_of_get? decided houtput
  obtain rfl :=
    Data.eq_text_of_asText? (Data.isDecided_of_get? decided hname) hreadName
  obtain rfl := Data.eq_text_of_asText?
    (Data.isDecided_of_get? decidedOutput hdirectory) hreadDirectory
  exact ⟨⟨hname, fun hempty => hnonempty (congrArg Data.text hempty)⟩,
    output, c.output.directory, houtput, hdirectory, fun hempty =>
    hlocated (congrArg Data.text hempty), rfl⟩

end Reading

/-- The components of a document that passes the check. -/
theorem exists_components {d : Data} (h : fault? d = none) :
    ∃ components, d.get? "components" = some (.list components) ∧
      ∀ component ∈ components, IsUsable component := by
  have hchecked := isChecked d
  have hpass : complaint? d = none := by rw [complaint?, h, Option.map_none]
  by_cases hlist : ∃ components, d.get? "components" = some (.list components)
  · obtain ⟨components, hcomponents⟩ := hlist
    refine ⟨components, hcomponents, ?_⟩
    intro component hmem
    by_contra hunusable
    exact (hchecked.usable components hcomponents (List.ne_nil_of_mem hmem)).2
      ⟨component, hmem, hunusable⟩ hpass
  · by_cases hnull : d = .null
    · rw [hchecked.empty.2 hnull] at hpass
      cases hpass
    · rw [(hchecked.components hnull).2 (not_exists.1 hlist)] at hpass
      cases hpass

/-- The check reports what is missing first, and a document that passes and can
be read stands for one request for each of its components, in their order. -/
theorem checked_requests {d : Data} (decided : d.isDecided = true) :
    IsChecked d ∧ ∀ m, ofDocument d = .ok m → ∀ o : Overrides,
      ∃ components, d.get? "components" = some (.list components) ∧
        List.Forall₂ (IsFor o) components (m.requests o) := by
  refine ⟨isChecked d, ?_⟩
  intro m hm o
  rw [ofDocument] at hm
  split at hm
  · cases hm
  · next hpass =>
      obtain ⟨components, hcomponents, husable⟩ := exists_components hpass
      refine ⟨components, hcomponents, ?_⟩
      split at hm
      · next read hread =>
          obtain rfl := Except.ok.inj hm
          have hdecided : Data.areDecided components = true :=
            Data.isDecided_of_get? decided hcomponents
          have hread : List.Forall₂ (fun component c =>
              Component.ofData? component = some c)
              components read.components :=
                forall₂_of_mapM (components_of_ofData? hread hcomponents)
          have hready : ∀ component ∈ components,
              component.isDecided = true ∧
                IsUsable component := fun component hmem =>
            ⟨Data.isDecided_of_mem hdecided hmem, husable component hmem⟩
          rw [requests, List.forall₂_map_right_iff]
          refine ((List.forall₂_and_left _ _).2 ⟨hready, hread⟩).imp ?_
          rintro component c ⟨⟨hone, husable⟩, hc⟩
          exact isFor_request hone husable hc read.defaults o
      · cases hm

namespace CheckingWitness

def component (name : Data) (output : List (Data × Data)) : Data :=
  .table [(.text "name", name), (.text "output", .table output)]

def document (components : List Data) : Data :=
  .table [(.text "components", .list components)]

def unlocated : Data :=
  document [component (.text "Button") [(.text "directory", .text "ui")],
    component (.text "Card") [(.text "style", .text "css")]]

def located : Data :=
  document [component (.text "Button") [(.text "directory", .text "ui")],
    component (.text "Card") [(.text "style", .text "css"),
      (.text "directory", .text ".")]]

theorem ofDocument_located : ∃ m, ofDocument located = .ok m := ⟨_, rfl⟩

/-- A card without a directory is reported by its name, and one with a directory
gives a request. -/
theorem checked_requests_cards :
    (unlocated.isDecided = true ∧ located.isDecided = true) ∧
      IsChecked unlocated ∧
      complaint? unlocated =
        some "Component \"Card\" missing output directory" ∧
      ∃ m components, ofDocument located = .ok m ∧
        located.get? "components" = some (.list components) ∧
        List.Forall₂ (IsFor { directory := some "out" }) components
          (m.requests { directory := some "out" }) ∧
        (m.requests { directory := some "out" }).map (·.name) =
          ["Button", "Card"] := by
  have hunlocated : unlocated.isDecided = true := by decide
  have hlocated : located.isDecided = true := by decide
  obtain ⟨m, hm⟩ := ofDocument_located
  obtain ⟨components, hcomponents, hall⟩ :=
    (checked_requests hlocated).2 m hm { directory := some "out" }
  have hnames : (m.requests { directory := some "out" }).map (·.name) =
      ["Button", "Card"] := by
    obtain rfl := Except.ok.inj hm
    rfl
  exact ⟨⟨hunlocated, hlocated⟩, (checked_requests hunlocated).1, by decide,
    m, components, hm, hcomponents, hall, hnames⟩

end CheckingWitness

end Manifest

end Scaffold

import Scaffold.Proofs.Expansion.Shown
/-!
Refinement without placeholder text.  Where no name asks for placeholder text,
nothing is drawn, and every pass but the naming changes attributes only.  So
refining a node is to name it, to put its attributes in order, to relabel it
with the nodes below it, and to refine these.  Main statement: `refineNode_eq`.
-/
namespace Scaffold

/-- A name that asks for no placeholder text. -/
def Lorem.IsOrdinary (name : String) : Prop := Request.ofName? name = none

instance (name : String) : Decidable (Lorem.IsOrdinary name) :=
  inferInstanceAs (Decidable (_ = none))

/-- All child tags of a table and both fallbacks pass. -/
structure ImplicitTags.All (P : String → Prop) (table : ImplicitTags) :
    Prop where
  child : ∀ entry ∈ table.entries, P entry.2
  inlineFallback : P table.inlineFallback
  blockFallback : P table.blockFallback

theorem ImplicitTags.All.of_lookup {P : String → Prop} {table : ImplicitTags}
    (h : table.All P) {parent child : String}
    (hchild : table.lookup parent = some child) : P child := by
  obtain ⟨front, rest, hentries, -⟩ := List.lookup_eq_some_iff.1 hchild
  have hmem : (Text.lowercase parent, child) ∈ table.entries := by
    simp [hentries]
  exact h.child _ hmem

theorem ImplicitTags.isOrdinary_html : html.All Lorem.IsOrdinary :=
  ⟨by decide, by decide, by decide⟩

namespace Tag

/-- A tag that does not ask for placeholder text. -/
def IsOrdinary (t : Tag) : Prop := ∀ name ∈ t.name, Lorem.IsOrdinary name

instance (t : Tag) : Decidable t.IsOrdinary :=
  inferInstanceAs (Decidable (∀ name ∈ t.name, Lorem.IsOrdinary name))

/-- The same tag, up to what its attributes are. -/
structure SameButAttributes (t u : Tag) : Prop where
  name : u.name = t.name
  value : u.value = t.value
  copy : u.copy = t.copy
  selfClosing : u.selfClosing = t.selfClosing
  attributes : u.attributes.isSome = t.attributes.isSome

namespace SameButAttributes

variable {t u v : Tag}

theorem refl (t : Tag) : t.SameButAttributes t := ⟨rfl, rfl, rfl, rfl, rfl⟩

theorem trans (h : t.SameButAttributes u) (h' : u.SameButAttributes v) :
    t.SameButAttributes v :=
  ⟨h'.name.trans h.name, h'.value.trans h.value, h'.copy.trans h.copy,
    h'.selfClosing.trans h.selfClosing, h'.attributes.trans h.attributes⟩

theorem mapAttributes (t : Tag) (f : List Attribute → List Attribute) :
    t.SameButAttributes { t with attributes := t.attributes.map f } :=
  ⟨rfl, rfl, rfl, rfl, Option.isSome_map⟩

theorem isOrdinary (h : t.SameButAttributes u) (ht : t.IsOrdinary) :
    u.IsOrdinary := by
  rw [IsOrdinary, h.name]
  exact ht

end SameButAttributes

end Tag

namespace Node

theorem sameButAttributes_withoutVacant (name : String) (t : Tag) :
    t.SameButAttributes (withoutVacant name t) := .mapAttributes t _

theorem sameButAttributes_dropSelect (t : Tag) (hasChildren : Bool) :
    t.SameButAttributes (dropSelect t hasChildren) := by
  rw [dropSelect]
  split
  · exact .mapAttributes t _
  · exact .refl t

theorem sameButAttributes_relabel (t : Tag) (children : List Node) :
    t.SameButAttributes (relabel t children).1 := by
  rw [relabel]
  split
  · split
    · exact sameButAttributes_withoutVacant "for" t
    · exact .refl t
  · exact .refl t

theorem sameButAttributes_withClasses (t : Tag) (names : List String) :
    t.SameButAttributes (Bem.withClasses t names) := by
  rw [Bem.withClasses]
  split
  · exact .refl t
  · exact .mapAttributes t _

theorem isOrdinary_relabel (t : Tag) {children : List Node}
    (h : AllTags Tag.IsOrdinary children) :
    AllTags Tag.IsOrdinary (relabel t children).2 := by
  rw [relabel]
  split
  · split
    · next below hbelow =>
        refine h.modifyFirstInput (fun u hu => ?_) hbelow
        exact (sameButAttributes_withoutVacant "id" u).isOrdinary hu
    · exact h
  · exact h

section

variable (c : Config) (above : List Frame)

theorem sameButAttributes_expandClasses (t : Tag) :
    t.SameButAttributes (expandClasses c above t).1 := by
  rw [expandClasses]
  split
  · rw [Bem.expand]
    exact (sameButAttributes_withClasses t _).trans
      (sameButAttributes_withClasses _ _)
  · exact .refl t

/-- A nameless element gets an entry of the table or a fallback. -/
theorem of_implicitName {P : String → Prop} {c : Config}
    (table : c.implicitTags.All P) : P (implicitName c above) := by
  rw [implicitName]
  split
  · next child hchild => exact table.of_lookup hchild
  · split
    · exact table.inlineFallback
    · exact table.blockFallback

theorem isOrdinary_nameImplicitly {c : Config}
    (table : c.implicitTags.All Lorem.IsOrdinary) {t : Tag}
    (ht : t.IsOrdinary) : (nameImplicitly c above t).IsOrdinary := by
  rw [nameImplicitly]
  split
  · rintro name ⟨⟩
    exact of_implicitName above table
  · exact ht

def ordered (t : Tag) (hasChildren : Bool) : Tag :=
  let t := mergeAttributes c (nameImplicitly c above t)
  if c.dialect = .xsl then dropSelect t hasChildren else t

theorem sameButAttributes_ordered (t : Tag) (hasChildren : Bool) :
    (nameImplicitly c above t).SameButAttributes
      (ordered c above t hasChildren) := by
  have hmerged : (nameImplicitly c above t).SameButAttributes
      (mergeAttributes c (nameImplicitly c above t)) := .mapAttributes _ _
  rw [ordered]
  split
  · exact hmerged.trans (sameButAttributes_dropSelect _ hasChildren)
  · exact hmerged

theorem fillLorem_of_isOrdinary {σ : Type} [Random.Source σ] {t : Tag}
    (ht : t.IsOrdinary) (s : σ) : fillLorem c above t s = (t, s) := by
  have hnone : t.name.bind Lorem.Request.ofName? = none := by
    cases hname : t.name with
    | none => rfl
    | some name => exact ht name hname
  rw [fillLorem, hnone]

/-- An ordinary node is named, put in order, relabelled and expanded, before
those below it. -/
theorem refineNode_eq {σ : Type} [Random.Source σ] {c : Config}
    (table : c.implicitTags.All Lorem.IsOrdinary) {t : Tag} (ht : t.IsOrdinary)
    (children : List Node) (s : σ) :
    refineNode c above ⟨t, children⟩ s =
      let labelled := relabel (ordered c above t (!children.isEmpty)) children
      let (tag, classes) := expandClasses c above labelled.1
      let (below, s) :=
        refineNodes c (⟨tag.name, tag.copy, classes⟩ :: above) labelled.2 s
      (⟨tag, below⟩, s) := by
  have hmerged : (mergeAttributes c (nameImplicitly c above t)).IsOrdinary :=
    isOrdinary_nameImplicitly above table ht
  rw [refineNode]
  simp only [fillLorem_of_isOrdinary c above hmerged, ordered]

end

end Node

end Scaffold

import Scaffold.Proofs.Bem.Elements
import Scaffold.Proofs.Bem.FullNames
import Scaffold.Proofs.Expansion.Shown
/-!
Which class names of a tree stay where all of them are written out in full.  A
node hands its first block down, and a node without classes that of the node
above it, so what a mark looks up is read off the classes that the nodes above
have in the end.  Main statement: `refine_keeps_full_names`.
-/
namespace Scaffold

open Bem

def Tag.IsFull (t : Tag) : Prop :=
  ∃ fs : List FullName, (∀ f ∈ fs, f.IsProper) ∧
    t.classNames = fs.map FullName.text

theorem Tag.IsFull.congr {t u : Tag} (h : t.IsFull)
    (hnames : u.classNames = t.classNames) : u.IsFull := by
  rwa [IsFull, hnames]

namespace Node

/-- A tag with full class names has the block of the first one in front in the
end, and those of them that stay below the next block of the tags around it. -/
def KeepsFullNames (c : Config) (around : List Tag) (t u : Tag) : Prop :=
  t.Remains c u → ∀ fs : List FullName, (∀ f ∈ fs, f.IsProper) →
    t.classNames = fs.map FullName.text →
      (written u).head? = fs.head?.map FullName.block ∧
        ∀ f ∈ fs, f.text ∈ written u ↔
          Stays (around.findSome? fun v => (written v).head?) fs f

/-- Frames have the blocks that tags have in front of their classes. -/
structure HandDown (around : List Tag) (above : List Frame) : Prop where
  blocks : above.map (·.classes.block) = around.map fun v => (written v).head?
  proper : HasProperBlocks (above.map (·.classes))

section

variable {c : Config} {around : List Tag} {above : List Frame} {t v : Tag}

theorem HandDown.findSome? (h : HandDown around above) :
    (above.map (·.classes)).findSome? (·.block) =
      around.findSome? fun v => (written v).head? := by
  have hblocks := congrArg (List.findSome? id) h.blocks
  rw [List.findSome?_map, List.findSome?_map] at hblocks
  rw [List.findSome?_map]
  exact hblocks

theorem classNames_withoutVacant (t : Tag) :
    (withoutVacant "id" t).classNames = t.classNames := by
  rw [Tag.classNames, declarations_withoutVacant (by decide), Tag.classNames]

theorem keepsFullNames_withoutVacant (around : List Tag) (t u : Tag)
    (h : KeepsFullNames c around (withoutVacant "id" t) u) :
    KeepsFullNames c around t u :=
  fun hremains fs proper hnames =>
    h hremains fs proper ((classNames_withoutVacant t).trans hnames)

theorem isFull_relabel {children : List Node} (h : AllTags Tag.IsFull children)
    (t : Tag) : AllTags Tag.IsFull (relabel t children).2 := by
  rw [relabel]
  split
  · split
    · next below hbelow =>
        exact h.modifyFirstInput (fun t ht =>
          ht.congr (classNames_withoutVacant t)) hbelow
    · exact h
  · exact h

theorem written_of_attributes_eq_none {t : Tag}
    (h : t.attributes.isSome = false) : written t = [] := by
  rw [Option.isSome_eq_false_iff, Option.isNone_iff_eq_none] at h
  simp [written, Tag.find?, Tag.attributeList, h]

/-- One tag: of its full names those stay that may, and it hands its first block
down. -/
theorem keepsFullNames_expandClasses
    (hbem : c.options.bem = { enabled := true })
    (habove : HandDown around above) (hfull : t.IsFull)
    (hwritten : t.Remains c (expandClasses c above v).1 →
      written v = t.classNames) :
    KeepsFullNames c around t (expandClasses c above v).1 ∧
      HandDown ((expandClasses c above v).1 :: around)
        (⟨(expandClasses c above v).1.name, (expandClasses c above v).1.copy,
          (expandClasses c above v).2⟩ :: above) := by
  have henabled : c.options.bem.enabled = true := by rw [hbem]
  have hmodifier : c.options.bem.modifier = "_" := by rw [hbem]
  have hexpand := expandClasses_of_enabled henabled above v
  have hattributes := (sameButAttributes_expandClasses c above v).attributes
  rw [hexpand] at hwritten hattributes ⊢
  constructor
  · intro hremains fs proper hnames
    have hv := (hwritten hremains).trans hnames
    obtain ⟨hall, hhead⟩ := written_expand hmodifier proper hv habove.proper
    rw [hall]
    refine ⟨hhead, fun f hf => ?_⟩
    rw [text_mem_expanded hmodifier proper hv habove.proper hf,
      habove.findSome?]
  · -- a tag that becomes placeholder text has no classes
    obtain ⟨fs, proper, hv⟩ : ∃ fs : List FullName, (∀ f ∈ fs, f.IsProper) ∧
        written v = fs.map FullName.text := by
      by_cases hremains :
        t.Remains c (Bem.expand c.options.bem (above.map (·.classes)) v).1
      · obtain ⟨fs, proper, hnames⟩ := hfull
        exact ⟨fs, proper, (hwritten hremains).trans hnames⟩
      · refine ⟨[], by simp, written_of_attributes_eq_none ?_⟩
        rw [← hattributes]
        exact Bool.eq_false_iff.2 fun hsome => hremains (.inr hsome)
    obtain ⟨hall, hhead⟩ := written_expand hmodifier proper hv habove.proper
    have hblock : (Bem.expand c.options.bem (above.map (·.classes)) v).2.block =
        fs.head?.map FullName.block := block_classesOf proper hv
    constructor
    · rw [List.map_cons, List.map_cons, hall, hhead, hblock, habove.blocks]
    · exact hasProperBlocks_classesOf proper hv habove.proper

variable {σ : Type} [Random.Source σ]

mutual

/-- One node: its own full names, and those of the nodes below it. -/
theorem pairedBelow_refineNode (hbem : c.options.bem = { enabled := true })
    {around : List Tag} {above : List Frame} (habove : HandDown around above)
    {n : Node} (h : AllTags Tag.IsFull [n]) (s : σ) :
    PairedBelow (KeepsFullNames c) around n (refineNode c above n s).1 := by
  match n with
  | ⟨t, children⟩ =>
      obtain ⟨ht, hchildren, -⟩ : t.IsFull ∧ AllTags Tag.IsFull children ∧ _ :=
        allTags_cons.1 h
      have hlabelled := sameButAttributes_relabel
        (arranged c above t (!children.isEmpty) s).1 children
      have hsame := hlabelled.trans (sameButAttributes_expandClasses c above _)
      obtain ⟨htag, hbelow⟩ := keepsFullNames_expandClasses hbem habove ht
        (v := (relabel (arranged c above t (!children.isEmpty) s).1 children).1)
        fun hremains => (written_congr (declarations_relabel _ _)).trans
          (written_arranged hsame hremains)
      rw [refineNode_arranged]
      exact ⟨htag, .of_relabel keepsFullNames_withoutVacant
        (allPairedBelow_refineNodes hbem hbelow (isFull_relabel hchildren _) _)⟩
termination_by 2 * size n + 1
decreasing_by
  simp [size]
  omega

theorem allPairedBelow_refineNodes (hbem : c.options.bem = { enabled := true })
    {around : List Tag} {above : List Frame} (habove : HandDown around above)
    {ns : List Node} (h : AllTags Tag.IsFull ns) (s : σ) :
    AllPairedBelow (KeepsFullNames c) around ns
      (refineNodes c above ns s).1 := by
  match ns with
  | [] =>
      rw [refineNodes]
      trivial
  | n :: ns =>
      obtain ⟨hn, hns⟩ := allTags_cons_iff.1 h
      rw [refineNodes]
      exact ⟨pairedBelow_refineNode hbem habove hn s,
        allPairedBelow_refineNodes hbem habove hns _⟩
termination_by 2 * sizes ns + 2
decreasing_by
  · simp only [sizes]
    omega
  · simp [sizes]
    exact size_pos _

end

end

/-- Where class names are expanded with the usual separators and all of them are
full names, a node has the block of its first name in front in the end.  Of its
names it keeps the blocks, the modifiers of that block, and those that a name
with an element is mistaken for; no name with an element stays. -/
theorem refine_keeps_full_names {c : Config}
    (hbem : c.options.bem = { enabled := true }) {nodes : List Node}
    (full : AllTags Tag.IsFull nodes) :
    AllPairedBelow (KeepsFullNames c) [] nodes (refine c nodes) :=
  allPairedBelow_refineNodes hbem ⟨rfl, by simp [HasProperBlocks]⟩ full _

namespace StabilityWitness

open ElementsWitness

theorem isFull_classed {name : String} (fs : List FullName)
    (proper : ∀ f ∈ fs, f.IsProper) (h : Text.words name = fs.map FullName.text)
    (children : List Node) : (classed name children).tag.IsFull :=
  ⟨fs, proper, (classNames_classed name children).trans h⟩

def modified : List Node := [classed "ul ul_a" [classed "li_b" []]]

theorem full_modified : AllTags Tag.IsFull modified := by
  have hlist : (classed "ul ul_a" [classed "li_b" []]).tag.IsFull :=
    isFull_classed [⟨"ul", none, none⟩, ⟨"ul", none, some "a"⟩] (by decide)
      (by decide +kernel) _
  have hentry : (classed "li_b" []).tag.IsFull :=
    isFull_classed [⟨"li", none, some "b"⟩] (by decide) (by decide +kernel) _
  exact allTags_cons.2 ⟨hlist,
    allTags_cons.2 ⟨hentry, allTags_nil, allTags_nil⟩, allTags_nil⟩

theorem refine_modified :
    refine config modified = [classed "ul ul_a" [classed "li li_b" []]] := by
  rw [config, modified, classed, classed, classed, classed]
  cbv

/-- Modifiers of the block of a node stay. -/
theorem refine_keeps_full_names_modified :
    (config.options.bem = { enabled := true } ∧ AllTags Tag.IsFull modified) ∧
      AllPairedBelow (KeepsFullNames config)
        [] modified (refine config modified) ∧
      refine config modified = [classed "ul ul_a" [classed "li li_b" []]] := by
  have hbem : config.options.bem = { enabled := true } := rfl
  exact ⟨⟨hbem, full_modified⟩, refine_keeps_full_names hbem full_modified,
    refine_modified⟩

/-- A name with an element is taken for two modifiers, and a modifier of a
second block for one of the first. -/
theorem full_names_lost :
    (FullName.text ⟨"a", some "e", none⟩ = "a__e" ∧
        AllTags Tag.IsFull [classed "a__e" []] ∧
        refine config [classed "a__e" []] = [classed "a a_e" []] ∧
        "a__e" ∉ (classed "a a_e" []).tag.classNames) ∧
      AllTags Tag.IsFull [classed "a b_m" []] ∧
        refine config [classed "a b_m" []] = [classed "a b a_m" []] ∧
        "b_m" ∉ (classed "a b a_m" []).tag.classNames := by
  have helement : (classed "a__e" []).tag.IsFull :=
    isFull_classed [⟨"a", some "e", none⟩] (by decide) (by decide +kernel) _
  have hmodifier : (classed "a b_m" []).tag.IsFull :=
    isFull_classed [⟨"a", none, none⟩, ⟨"b", none, some "m"⟩] (by decide)
      (by decide +kernel) _
  have hfirst : Text.words "a a_e" = ["a", "a_e"] := by decide +kernel
  have hsecond : Text.words "a b a_m" = ["a", "b", "a_m"] := by decide +kernel
  refine ⟨⟨by decide, allTags_cons.2 ⟨helement, allTags_nil, allTags_nil⟩, ?_,
    ?_⟩, allTags_cons.2 ⟨hmodifier, allTags_nil, allTags_nil⟩, ?_, ?_⟩
  · rw [config, classed, classed]
    cbv
  · rw [classNames_classed, hfirst]
    decide
  · rw [config, classed, classed]
    cbv
  · rw [classNames_classed, hsecond]
    decide

end StabilityWitness

end Node

end Scaffold

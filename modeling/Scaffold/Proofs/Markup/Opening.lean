import Scaffold.Proofs.Markup.Quoting
import Scaffold.Proofs.Markup.Scripts
import Scaffold.Proofs.Markup.Spelling
/-!
Nothing that is written goes away again, so an element leaves the bracket that
opens its tag in the markup wherever it stands in a tree.  Main statement:
`opened_render`.
-/
namespace Scaffold.Markup

namespace Step

variable {c : Config}

/-- A step adds to what is written. -/
theorem exists_text_take (c : Config) (start : Page × List Nat) (step : Step) :
    ∃ s, (take c start step).1.out.text = start.1.out.text ++ s := by
  obtain ⟨p, held⟩ := start
  have of_extends : ∀ {q : Page}, p.Extends q →
      ∃ s, q.out.text = p.out.text ++ s :=
    fun ⟨s, hs⟩ => ⟨s, hs.text⟩
  cases step with
  | string s => exact of_extends (Page.extends_string c p s)
  | push s => exact of_extends (Page.extends_push c p s)
  | pieces ps => exact of_extends (Page.extends_pieces c p ps)
  | line back => exact ⟨_, (Page.adds_newline c p _).text⟩
  | shift n => exact ⟨"", by rw [String.append_empty]; rfl⟩
  | hold => exact ⟨"", by rw [String.append_empty]; rfl⟩
  | behind ps => exact of_extends (Tagged.extends_writeBehind _ ps p)
  | spell a spelling =>
      have hfirst := Page.extends_string c p
      have hpieces := Page.extends_pieces c
      have hstring := Page.extends_string c
      cases spelling with
      | shorthand mark value =>
          exact of_extends ((hfirst mark).trans (hpieces _ value))
      | assigned name quotes value =>
          exact of_extends ((((hfirst name).trans (hstring _ _)).trans
            (hpieces _ value)).trans (hstring _ _))
      | valueless name behind =>
          cases behind with
          | none => exact of_extends (hfirst name)
          | some behind =>
              exact of_extends ((hfirst name).trans (hstring _ behind))
  | separator s => exact of_extends (Page.extends_string c p s)

theorem mem_run_of_mem {ch : Char} {start : Page × List Nat}
    (h : ch ∈ start.1.out.text.toList) (steps : List Step) :
    ch ∈ (run c steps start).1.out.text.toList := by
  induction steps generalizing start with
  | nil => exact h
  | cons step steps ih =>
      rw [run, List.foldl_cons]
      apply ih
      obtain ⟨s, hs⟩ := exists_text_take c start step
      rw [hs, String.toList_append]
      exact List.mem_append_left _ h

end Step

namespace Page

variable {c : Config}

theorem mem_text_of_extends {p q : Page} (h : p.Extends q) {ch : Char}
    (hch : ch ∈ p.out.text.toList) : ch ∈ q.out.text.toList := by
  obtain ⟨s, hs⟩ := h
  rw [hs.text, String.toList_append]
  exact List.mem_append_left _ hch

theorem mem_lines (plain : ∀ s, c.hooks.text s = s) {ch : Char} {line : String}
    (hch : ch ∈ line.toList) {ss : List String} (hline : line ∈ ss) (p : Page) :
    ch ∈ (p.out.lines c.options c.hooks ss).text.toList := by
  have hpush (p : Page) : ch ∈ (p.push c line).out.text.toList := by
    rw [push, Output.push, Output.raw, plain, String.toList_append]
    exact List.mem_append_right _ hch
  induction ss generalizing p with
  | nil => cases hline
  | cons s rest ih =>
      cases rest with
      | nil =>
          obtain rfl := List.mem_singleton.1 hline
          exact hpush p
      | cons t rest =>
          rcases List.mem_cons.1 hline with rfl | hrest
          · have hbreak := extends_newline c (p.push c line) p.out.level
            exact mem_text_of_extends
              (hbreak.trans (extends_lines c _ (t :: rest))) (hpush p)
          · exact ih hrest ((p.push c s).newline c p.out.level)

/-- Where texts are written as they are, all that is no blank in them is
there. -/
theorem mem_string (plain : ∀ s, c.hooks.text s = s) (p : Page) {ch : Char}
    {s : String} (h : ch ∈ Markup.ink s) :
    ch ∈ (p.string c s).out.text.toList := by
  rw [← flatMap_ink_lines, List.mem_flatMap] at h
  obtain ⟨line, hline, hch⟩ := h
  exact mem_lines plain (List.mem_of_mem_filter hch) hline p

end Page

theorem Step.mem_run_of_string_mem {c : Config}
    (plain : ∀ s, c.hooks.text s = s) {s : String} {steps : List Step}
    (h : .string s ∈ steps) {ch : Char} (hch : ch ∈ ink s)
    (start : Page × List Nat) : ch ∈ (run c steps start).1.out.text.toList := by
  obtain ⟨front, behind, rfl⟩ := List.append_of_mem h
  rw [run_append, run, List.foldl_cons, ← run]
  refine mem_run_of_mem ?_ behind
  rw [take]
  exact Page.mem_string plain _ hch

/-! ### Tags of a tree -/

namespace Tagged

variable {o : Options} {t : Tag} {name : String}

theorem mem_contentSteps {tag : Tag} {hasChildren : Bool}
    {value : List Piece → List Step} {below otherwise : List Step} {step : Step}
    (h : step ∈ below) (hotherwise : tag.value = none → step ∈ otherwise) :
    step ∈ contentSteps tag hasChildren value below otherwise := by
  rw [contentSteps]
  split
  · simp [h]
  · split
    · simp [h]
    · next hnone => exact hotherwise hnone

/-- What is done for the nodes below an element is done within it. -/
theorem mem_elementSteps {tag : Tag} {rawName : String} {below : List Step}
    {step : Step} (h : step ∈ below) :
    step ∈ elementSteps o tag rawName true below := by
  have hcontent : step ∈ contentSteps tag true (valueSteps o) below below :=
    mem_contentSteps h fun _ => h
  simp [elementSteps, hcontent]

/-- The script of a node is that of its tag, where the nodes below it come
in. -/
theorem mem_nodeSteps {place : Place} {tag : Tag} {children : List Node}
    {step : Step}
    (h : step ∈ (match tag.name with
        | some name => elementSteps o tag name (!children.isEmpty)
            (nodesSteps o (some tag) [] children)
        | none => contentSteps tag (!children.isEmpty) (fun v => [.pieces v])
            (nodesSteps o (some tag) [] children) [])) :
    step ∈ nodeSteps o place ⟨tag, children⟩ := by
  rw [nodeSteps]
  exact List.mem_append_left
    _ (List.mem_append_left _ (List.mem_append_right _ h))

mutual

/-- The script of a node opens each element in it. -/
theorem string_mem_nodeSteps (hname : t.name = some name) (place : Place)
    {n : Node}
    (shown : Node.AllTags (fun t => t.name.isSome || t.value.isSome) [n])
    (h : t ∈ n.preorder) :
    .string ("<" ++ o.tagCase.apply name) ∈ nodeSteps o place n := by
  obtain ⟨tag, children⟩ := n
  obtain ⟨htag, hchildren, -⟩ := Node.allTags_cons.1 shown
  rw [Node.preorder_mk, List.mem_cons] at h
  apply mem_nodeSteps
  rcases h with rfl | hbelow
  · rw [hname]
    simp [elementSteps]
  · have hstep : .string ("<" ++ o.tagCase.apply name) ∈
        nodesSteps o (some tag) [] children :=
      string_mem_nodesSteps hname (some tag) [] hchildren hbelow
    have hsome : (!children.isEmpty) = true := by
      cases children with
      | nil => simp at hbelow
      | cons n ns => rfl
    rw [hsome]
    cases htagName : tag.name with
    | some name => exact mem_elementSteps hstep
    | none =>
        refine mem_contentSteps hstep fun hnone => ?_
        simp [htagName, hnone] at htag

theorem string_mem_nodesSteps (hname : t.name = some name) (parent : Option Tag)
    (before : List Tag) {ns : List Node}
    (shown : Node.AllTags (fun t => t.name.isSome || t.value.isSome) ns)
    (h : t ∈ Node.preorders ns) :
    .string ("<" ++ o.tagCase.apply name) ∈ nodesSteps o parent before ns := by
  match ns with
  | [] => simp at h
  | n :: ns =>
      obtain ⟨hn, hns⟩ := Node.allTags_cons_iff.1 shown
      rw [Node.preorders_cons, List.mem_append] at h
      rw [nodesSteps, List.mem_append]
      exact h.imp (string_mem_nodeSteps hname _ hn)
        (string_mem_nodesSteps hname _ _ hns)

end

end Tagged

/-- In markup with tags and texts as they are, an element that is shown leaves
the bracket that opens its tag. -/
theorem opened_render {c : Config} (tagged : c.dialect.isOutline = false)
    (plain : ∀ s, c.hooks.text s = s) {nodes : List Node}
    (shown : Node.AllTags (fun t => t.name.isSome || t.value.isSome) nodes)
    {t : Tag} (h : t ∈ Node.preorders nodes) (hname : t.name.isSome = true) :
    '<' ∈ (Node.render c nodes).toList := by
  obtain ⟨name, hname⟩ := Option.isSome_iff_exists.1 hname
  have hstyle : c.outlineStyle? = none := by
    rw [Config.outlineStyle?]
    cases hdialect : c.dialect <;> simp_all [Dialect.isOutline]
  have hstep : .string ("<" ++ c.options.tagCase.apply name) ∈
      script c nodes := by
    rw [script, hstyle]
    exact Tagged.string_mem_nodesSteps hname none [] shown h
  rw [render_eq_run]
  refine Step.mem_run_of_string_mem plain hstep ?_ _
  have hbracket : ink "<" = ['<'] := rfl
  rw [ink_append, hbracket]
  exact List.mem_cons_self

end Scaffold.Markup

import Scaffold.Component.Body
import Scaffold.Proofs.Component.Showing
import Scaffold.Proofs.Markup.Serializing
/-!
The selectors that are scraped from markup against those of its tree.  They
agree where plain class and id attributes are written in double quotes under the
names that the scan knows, and nothing else is.  In single quotes nothing is
found, and an attribute whose name only ends as one of these names is found too.
Main statement: `selectors_ofMarkup_render`.
-/
namespace Scaffold

open Markup.Tagged (renamed? form baseForm quotedForm? shownForms)

/-- Whether an attribute has this name and its value is written as a text: it is
no expression, and its shorthand is not doubled. -/
def Attribute.isPlain (name : String) (a : Attribute) : Bool :=
  a.hasName name && a.kind != .expression && !a.multiple

namespace Component

namespace Selectors

/-- The values of the plain attributes of a name, without the empty ones. -/
def plainValues (name : String) (tags : List Tag) : List String :=
  (((tags.flatMap (·.attributeList)).filter (·.isPlain name)).map
    (·.valueText)).filter (!·.isEmpty)

def ofTags (tags : List Tag) : Selectors where
  classes := ((plainValues "class" tags).flatMap Text.words).eraseDups
  ids := (plainValues "id" tags).eraseDups

end Selectors

/-- Plain attributes of this name are written under one of some names, and their
values as they are. -/
structure WritesAs (o : Options) (name : String) (names : List (List Char)) :
    Prop where
  renamed : Selectors.endsAs names false
    ((renamed? o.jsxAttributeNames name false).getD name).toList = true
  unprefixed : renamed? o.jsxValuePrefix name false = none

/-- Component markup in which values stand in double quotes and names in their
own letter case. -/
structure QuotesDoubly (o : Options) : Prop where
  jsx : o.jsx = true
  case : o.attributeCase = .asIs
  quotes : o.attributeQuotes = .double
  closing : o.selfClosing ≠ .html

/-- An attribute is told apart from the plain ones of a name: it has a value if
it is one of these and means the same without, and what is written under one of
their names is one. -/
structure IsToldFrom (o : Options) (name : String) (names : List (List Char))
    (a : Attribute) : Prop where
  valued : a.isPlain name = true → a.value = none →
    Markup.isBoolean o a = true → o.compactBoolean = true
  alone : ∀ given ∈ a.name, (form o a given).quotes = ("\"", "\"") →
    Selectors.endsAs names false (form o a given).name.toList = true →
      a.isPlain name = true

section

variable {o : Options} {name : String} {names : List (List Char)}
    {a : Attribute}

theorem form_of_isPlain (hquotes : QuotesDoubly o)
    (hwrites : WritesAs o name names) (ha : a.isPlain name = true) :
    baseForm o a name =
      ⟨(renamed? o.jsxAttributeNames name false).getD name, a.value,
        ("\"", "\"")⟩ := by
  simp only [Attribute.isPlain, Bool.and_eq_true, bne_iff_ne, ne_eq,
    Bool.not_eq_true'] at ha
  obtain ⟨⟨hname, hkind⟩, hmultiple⟩ := ha
  have hmarks : Markup.quotes o a = ("\"", "\"") := by
    rw [Markup.quotes, if_neg hkind, hquotes.quotes]
    rfl
  rw [baseForm, hquotes.jsx, hmultiple, hmarks, hwrites.unprefixed]
  rfl

/-- A plain attribute of a name is to be seen under one of its written names,
with its value. -/
theorem quotedForm?_of_isPlain (hquotes : QuotesDoubly o)
    (hwrites : WritesAs o name names) (htold : IsToldFrom o name names a)
    (ha : a.isPlain name = true) :
    quotedForm? o a =
      some ((renamed? o.jsxAttributeNames name false).getD name,
        a.valueText) := by
  have hbase := form_of_isPlain hquotes hwrites ha
  have hname : a.name = some name := by
    simp only [Attribute.isPlain, Attribute.hasName, Bool.and_eq_true,
      beq_iff_eq] at ha
    exact ha.1.1
  simp only [quotedForm?, hname, form, hbase, hquotes.case,
    LetterCase.apply, if_true]
  cases hvalue : a.value with
  | some value => simp [Attribute.valueText, hvalue]
  | none =>
    have hempty : a.valueText = "" := by rw [Attribute.valueText, hvalue]; rfl
    by_cases hboolean : Markup.isBoolean o a = true
    · simp [hboolean, htold.valued ha hvalue hboolean, hquotes.closing, hempty]
    · simp [hboolean, hempty, Markup.caret, Piece.plainText, Piece.plain]

/-- What is to be seen of an attribute is its form in double quotes. -/
theorem form_of_quotedForm? {e : String × String}
    (h : quotedForm? o a = some e) :
    ∃ given, a.name = some given ∧ (form o a given).quotes = ("\"", "\"") ∧
      e.1 = (form o a given).name := by
  rw [quotedForm?] at h
  cases hname : a.name with
  | none => simp [hname] at h
  | some given =>
    simp only [hname] at h
    by_cases hquotes : (form o a given).quotes = ("\"", "\"")
    · rw [if_pos hquotes] at h
      refine ⟨given, rfl, hquotes, ?_⟩
      cases hvalue : (form o a given).value with
      | some value =>
        simp only [hvalue, Option.some.injEq] at h
        rw [← h]
      | none =>
        simp only [hvalue, Option.ite_none_left_eq_some, Option.some.injEq] at h
        rw [← h.2]
    · rw [if_neg hquotes] at h
      exact absurd h (by simp)

/-- What is to be seen of an attribute under one of the names is the value of a
plain one. -/
theorem taken_quotedForm? (hquotes : QuotesDoubly o)
    (hwrites : WritesAs o name names) (htold : IsToldFrom o name names a) :
    ((quotedForm? o a).filter fun e =>
      Selectors.endsAs names false e.1.toList).map Prod.snd =
      if a.isPlain name then some a.valueText else none := by
  by_cases ha : a.isPlain name = true
  · rw [quotedForm?_of_isPlain hquotes hwrites htold ha, if_pos ha]
    simp [hwrites.renamed]
  · rw [if_neg ha, Option.map_eq_none_iff, Option.filter_eq_none_iff]
    intro e he hends
    obtain ⟨given, hname, hdouble, hform⟩ := form_of_quotedForm? he
    rw [hform] at hends
    exact ha (htold.alone given hname hdouble hends)

/-- An attribute that is not written has no value. -/
theorem valueText_of_isWritten (h : Markup.isWritten a = false) :
    a.valueText = "" := by
  have hvalue : a.value.getD [] = [] := by
    simp only [Markup.isWritten, Attribute.hasValue, Bool.or_eq_false_iff,
      Bool.not_eq_false', List.isEmpty_iff] at h
    exact h.2
  rw [Attribute.valueText, hvalue]
  rfl

/-- The values under one of the names, among those to be seen. -/
def takenValues (names : List (List Char)) (entries : List (String × String)) :
    List String :=
  (entries.filter fun e => Selectors.endsAs names false e.1.toList).map Prod.snd

theorem takenValues_filterMap {α : Type} (f : α → Option (String × String))
    (xs : List α) :
    takenValues names (xs.filterMap f) =
      xs.filterMap fun x =>
        ((f x).filter fun e => Selectors.endsAs names false e.1.toList).map
          Prod.snd := by
  rw [takenValues, List.filter_filterMap, List.map_filterMap]

theorem filter_takenValues_attributes (hquotes : QuotesDoubly o)
    (hwrites : WritesAs o name names) {attributes : List Attribute}
    (htold : ∀ a ∈ attributes, IsToldFrom o name names a) :
    (takenValues names
      ((attributes.filter Markup.isWritten).filterMap (quotedForm? o))).filter
        (!·.isEmpty) =
      ((attributes.filter (·.isPlain name)).map (·.valueText)).filter
        (!·.isEmpty) := by
  rw [takenValues_filterMap]
  induction attributes with
  | nil => rfl
  | cons a attributes ih =>
    rw [List.forall_mem_cons] at htold
    have hrest := ih htold.2
    rw [List.filter_cons, List.filter_cons]
    by_cases hwritten : Markup.isWritten a = true
    · rw [if_pos hwritten, List.filterMap_cons,
        taken_quotedForm? hquotes hwrites htold.1]
      by_cases hplain : a.isPlain name = true
      · rw [if_pos hplain, if_pos hplain, List.map_cons, List.filter_cons,
          List.filter_cons, hrest]
      · rw [if_neg hplain, if_neg hplain, hrest]
    · -- what is left out has no value to miss
      have hempty := valueText_of_isWritten (Bool.not_eq_true _ |>.mp hwritten)
      rw [if_neg hwritten, hrest]
      by_cases hplain : a.isPlain name = true
      · rw [if_pos hplain, List.map_cons, List.filter_cons, hempty]
        rfl
      · rw [if_neg hplain]

/-- What tags show under one of the names are the values of their plain
attributes. -/
theorem filter_takenValues (hquotes : QuotesDoubly o)
    (hwrites : WritesAs o name names) {tags : List Tag}
    (htold : ∀ t ∈ tags, ∀ a ∈ t.attributeList, IsToldFrom o name names a) :
    (takenValues names (tags.flatMap (shownForms o))).filter (!·.isEmpty) =
      Selectors.plainValues name tags := by
  have hforms : tags.flatMap (shownForms o) =
      ((tags.flatMap (·.attributeList)).filter Markup.isWritten).filterMap
        (quotedForm? o) := by
    rw [List.filter_flatMap, List.filterMap_flatMap]
    rfl
  have htold' : ∀ a ∈ tags.flatMap (·.attributeList),
      IsToldFrom o name names a := by
    intro a ha
    obtain ⟨t, ht, hat⟩ := List.mem_flatMap.1 ha
    exact htold t ht a hat
  rw [hforms]
  exact filter_takenValues_attributes hquotes hwrites htold'

/-- What tags show under one of the names is empty or the value of a plain
attribute. -/
theorem of_mem_takenValues (hquotes : QuotesDoubly o)
    (hwrites : WritesAs o name names) {tags : List Tag}
    (htold : ∀ t ∈ tags, ∀ a ∈ t.attributeList, IsToldFrom o name names a)
    {s : String} (hs : s ∈ takenValues names (tags.flatMap (shownForms o))) :
    s = "" ∨ ∃ t ∈ tags, ∃ a ∈ t.attributeList, a.isPlain name = true ∧
    a.valueText = s := by
  by_cases hempty : s = ""
  · exact .inl hempty
  · have hmem : s ∈ Selectors.plainValues name tags := by
      rw [← filter_takenValues hquotes hwrites htold, List.mem_filter]
      exact ⟨hs, by simpa using hempty⟩
    simp only [Selectors.plainValues, List.mem_filter, List.mem_map,
      List.mem_flatMap] at hmem
    obtain ⟨⟨a, ⟨⟨t, ht, ha⟩, hplain⟩, hvalue⟩, -⟩ := hmem
    exact .inr ⟨t, ht, a, ha, hplain, hvalue⟩

theorem forall₂_takenAmong (names : List (List Char))
    {entries : List (String × String)} {shown : List (List Char × List Char)}
    (h : List.Forall₂ (Markup.ShownAs o) entries shown) :
    List.Forall₂ (Markup.WrittenAs o) (takenValues names entries)
      (Selectors.takenAmong names shown) := by
  induction h with
  | nil => exact .nil
  | cons hshown _ ih =>
    rw [takenValues, Selectors.takenAmong, List.filter_cons,
      List.filter_cons, hshown.1]
    split
    · exact .cons hshown.2 ih
    · exact ih

end

/-- Options by which plain class and id attributes are written as what they are
looked for as. -/
structure ShowsSelectors (o : Options) : Prop where
  case : o.attributeCase = .asIs
  quotes : o.attributeQuotes = .double
  classes : WritesAs o "class" Selectors.classNames
  ids : WritesAs o "id" Selectors.idNames

theorem quotesDoubly_config {c : Config}
    (h : ShowsSelectors (Body.config c).options) :
    QuotesDoubly (Body.config c).options where
  jsx := rfl
  case := h.case
  quotes := h.quotes
  closing := by
    show (if c.options.selfClosing = .html then SelfClosing.xhtml
      else c.options.selfClosing) ≠ .html
    split
    · decide
    · assumption

/-- An attribute that looks like a selector just if it is one. -/
structure IsScrapable (o : Options) (a : Attribute) : Prop where
  byClass : IsToldFrom o "class" Selectors.classNames a
  byId : IsToldFrom o "id" Selectors.idNames a
  classBreaks : a.isPlain "class" = true → Text.hasBreak a.valueText = true →
    Markup.BreaksBlankly o
  idLine : a.isPlain "id" = true → Text.hasBreak a.valueText = false

/-- The selectors scraped from the markup of a tree are those of its plain class
and id attributes, in document order. -/
theorem selectors_ofMarkup_render {c : Config}
    (hlayout : Markup.LegibleLayout (Body.config c))
    (hshows : ShowsSelectors (Body.config c).options) {nodes : List Node}
    (hlegible : ∀ t ∈ Node.preorders nodes,
      Markup.Tagged.IsLegibleTag (Body.config c).options t)
    (hscrapable : ∀ t ∈ Node.preorders nodes, ∀ a ∈ t.attributeList,
      IsScrapable (Body.config c).options a) :
    (Body.ofMarkup (Node.render (Body.config c) nodes)).selectors =
      Selectors.ofTags (Node.preorders nodes) := by
  have hquotes := quotesDoubly_config hshows
  have hclass := fun t ht a ha => (hscrapable t ht a ha).byClass
  have hid := fun t ht a ha => (hscrapable t ht a ha).byId
  obtain ⟨shown, hmarkup, hentries⟩ :=
    Markup.Tagged.exists_shows_page hlayout hlegible
  have hclasses := forall₂_takenAmong Selectors.classNames hentries
  have hids := forall₂_takenAmong Selectors.idNames hentries
  have hclassBreaks : ∀ s ∈ takenValues Selectors.classNames
      ((Node.preorders nodes).flatMap (shownForms (Body.config c).options)),
      Text.hasBreak s = true →
        Markup.BreaksBlankly (Body.config c).options := by
    intro s hs hbreak
    rcases of_mem_takenValues hquotes hshows.classes hclass hs with
      rfl | ⟨t, ht, a, ha, hplain, rfl⟩
    · exact absurd hbreak (by decide)
    · exact (hscrapable t ht a ha).classBreaks hplain hbreak
  have hidLines : ∀ s ∈ takenValues Selectors.idNames
      ((Node.preorders nodes).flatMap (shownForms (Body.config c).options)),
      Text.hasBreak s = false := by
    intro s hs
    rcases of_mem_takenValues hquotes hshows.ids hid hs with
      rfl | ⟨t, ht, a, ha, hplain, rfl⟩
    · decide
    · exact (hscrapable t ht a ha).idLine hplain
  have hrender : Node.render (Body.config c) nodes =
      (Markup.Tagged.page (Body.config c) nodes).out.text :=
    Markup.render_of_isOutline_eq_false rfl nodes
  show Selectors.ofMarkup _ = _
  rw [hrender, Selectors.ofMarkup,
    Selectors.classOpenings_eq, Selectors.idOpenings_eq,
    Selectors.values_of_shows Selectors.areNames_classNames hmarkup,
    Selectors.values_of_shows Selectors.areNames_idNames hmarkup,
    Text.flatMap_words_filter, Markup.flatMap_words_of_writtenAs hclasses
    hclassBreaks, Markup.eq_of_writtenAs hids hidLines,
    ← Text.flatMap_words_filter, filter_takenValues hquotes hshows.classes
    hclass, filter_takenValues hquotes hshows.ids hid]
  rfl

namespace SelectorsWitness

/-- The tags of a section with an id and two classes, and of a paragraph in it
that has classes on two lines, a class that is an expression, and one that a
style object has. -/
def tags : List Tag :=
  [{ name := some "section", attributes := some
      [{ name := some "id", value := some [.text "hero"] },
       { name := some "class", value := some [.text "banner dark"] }] },
   { name := some "p", value := some [.text "id"], attributes := some
      [{ name := some "class", value := some [.text "wide\nbanner"] },
        { name := some "class", value := some [.text "late"],
          kind := .expression },
        { name := some "class",
          value := some [.text "bound"], multiple := true },
        { name := some "title", value := some [.text "class"] }] }]

/-- The paragraph in the section. -/
def tree : List Node := tags.foldr (fun t below => [⟨t, below⟩]) []

theorem preorders_tree : Node.preorders tree = tags := by simp [tree, tags]

def options : Options := (Body.config {}).options

theorem legibleLayout : Markup.LegibleLayout (Body.config {}) :=
  ⟨rfl, by decide⟩

theorem showsSelectors : ShowsSelectors options :=
  ⟨rfl, rfl, ⟨by decide, by decide⟩, ⟨by decide, by decide⟩⟩

theorem breaksBlankly : Markup.BreaksBlankly options :=
  ⟨by decide, by decide, by decide, by decide⟩

theorem isLegible :
    ∀ t ∈ tags, ∀ a ∈ t.attributeList, Markup.Tagged.IsLegible options a := by
  have hname : ∀ t ∈ tags, ∀ a ∈ t.attributeList, ∀ name ∈ a.name,
      '=' ∉ (form options a name).name.toList ∧
        Text.hasBreak (form options a name).name = false := by decide +kernel
  have hvalue : ∀ t ∈ tags, ∀ a ∈ t.attributeList, ∀ name ∈ a.name,
      '=' ∉ (Piece.plainText ((form options a name).value.getD [])).toList ∧
        '"' ∉
            (Piece.plainText ((form options a name).value.getD [])).toList := by
          decide +kernel
  exact fun t ht a ha => ⟨hname t ht a ha, hvalue t ht a ha⟩

theorem isLegibleTag : ∀ t ∈ tags, Markup.Tagged.IsLegibleTag options t := by
  have hname : ∀ t ∈ tags, ∀ name ∈ t.name,
      '=' ∉ (options.tagCase.apply name).toList := by
    decide
  have hnamed : ∀ t ∈ tags, t.name ≠ none := by decide
  have hvalue : ∀ t ∈ tags, '=' ∉ t.valueText.toList := by decide
  exact fun t ht =>
    ⟨hname t ht, fun hnone => absurd hnone (hnamed t ht), hvalue t ht,
      isLegible t ht⟩

theorem isScrapable :
    ∀ t ∈ tags, ∀ a ∈ t.attributeList, IsScrapable options a := by
  have hvalued : ∀ t ∈ tags, ∀ a ∈ t.attributeList, a.value ≠ none := by decide
  have hclass : ∀ t ∈ tags, ∀ a ∈ t.attributeList, ∀ given ∈ a.name,
      (form options a given).quotes = ("\"", "\"") →
        Selectors.endsAs Selectors.classNames false (form options a
            given).name.toList = true → a.isPlain "class" = true := by
          decide +kernel
  have hid : ∀ t ∈ tags, ∀ a ∈ t.attributeList, ∀ given ∈ a.name,
      (form options a given).quotes = ("\"", "\"") →
        Selectors.endsAs Selectors.idNames false (form options a
            given).name.toList = true → a.isPlain "id" = true := by
          decide +kernel
  have hline : ∀ t ∈ tags, ∀ a ∈ t.attributeList, a.isPlain "id" = true →
      Text.hasBreak a.valueText = false := by decide
  intro t ht a ha
  exact ⟨⟨fun _ hnone => absurd hnone (hvalued t ht a ha), hclass t ht a ha⟩,
    ⟨fun _ hnone => absurd hnone (hvalued t ht a ha), hid t ht a ha⟩,
    fun _ _ => breaksBlankly, hline t ht a ha⟩

/-- The scraped selectors are those of the tree: each class once, and only the
plain ones. -/
theorem selectors_ofMarkup_section :
    (Markup.LegibleLayout (Body.config {}) ∧
      ShowsSelectors (Body.config {}).options ∧
      (∀ t ∈ Node.preorders tree,
        Markup.Tagged.IsLegibleTag (Body.config {}).options t) ∧
      ∀ t ∈ Node.preorders tree, ∀ a ∈ t.attributeList,
        IsScrapable (Body.config {}).options a) ∧
    (Body.ofMarkup (Node.render (Body.config {}) tree)).selectors =
      Selectors.ofTags (Node.preorders tree) ∧
    Selectors.ofTags (Node.preorders tree) =
      ⟨["banner", "dark", "wide"], ["hero"]⟩ := by
  have hlegible : ∀ t ∈ Node.preorders tree,
      Markup.Tagged.IsLegibleTag options t := by
    rw [preorders_tree]
    exact isLegibleTag
  have hscrapable : ∀ t ∈ Node.preorders tree, ∀ a ∈ t.attributeList,
      IsScrapable options a := by
    rw [preorders_tree]
    exact isScrapable
  refine ⟨⟨legibleLayout, showsSelectors, hlegible, hscrapable⟩,
    selectors_ofMarkup_render legibleLayout showsSelectors hlegible
    hscrapable, ?_⟩
  rw [preorders_tree]
  decide +kernel

def elementWith (name value : String) (children : List Node := []) : Node where
  tag := { name := some "p",
           attributes := some [{ name, value := some [.text value] }] }
  children := children

/-- Options and trees of which the scraped selectors are not those of the
tree. -/
def mistaken : List (Options × List Node) :=
  [ -- a name that ends as an id behind a hyphen
   ({}, [elementWith "data-id" "5"]),
   -- classes in other quotes, under another name, and as a member of an object
   ({ attributeQuotes := .single }, [elementWith "class" "card"]),
   ({ jsxAttributeNames := [("class", "look")] }, [elementWith "class" "card"]),
   ({ jsxValuePrefix := [("class", "styles")] }, [elementWith "class" "card"]),
   -- a class without a value that is written with its name for one
   ({}, [⟨{ name := some "p",
            attributes := some [{ name := some "class", boolean := true }] },
          []⟩]),
   -- a class of a nameless node, and one below a node that is left out
   ({}, [⟨{ (elementWith "class" "card").tag with
            name := none, value := some [.text "text"] }, []⟩]),
   ({}, [⟨{}, [elementWith "class" "card"]⟩]),
   -- values on two lines, where the line break of the layout is empty or longer
   -- than theirs
   ({ newline := "" }, [elementWith "class" "wide\ncard"]),
   ({ baseIndent := "  " }, [elementWith "id" "wide\ncard"]),
   -- attributes in the layout and in names
   ({ indent := " id=\"x\" " },
     [elementWith "title" "box" [elementWith "title" "inner"]]),
   ({}, [⟨{ name := some "p id=\"x\"" }, []⟩]),
   ({}, [elementWith "id=\"x\" title" "box"])]

/-- The selectors that are scraped, and those of the tree. -/
def selectorsOf (e : Options × List Node) : Selectors × Selectors :=
  ((Body.ofMarkup (Node.render (Body.config { options := e.1 }) e.2)).selectors,
    Selectors.ofTags (Node.preorders e.2))

/-- None of the conditions can be left out: selectors are found that the tree
does not have, and those that it has are missed or torn. -/
theorem selectors_ofMarkup_mistaken :
    mistaken.map selectorsOf =
      [(⟨[], ["5"]⟩, ⟨[], []⟩),
       (⟨[], []⟩, ⟨["card"], []⟩), (⟨[], []⟩, ⟨["card"], []⟩),
         (⟨[], []⟩, ⟨["card"], []⟩),
       (⟨["className"], []⟩, ⟨[], []⟩),
       (⟨[], []⟩, ⟨["card"], []⟩), (⟨[], []⟩, ⟨["card"], []⟩),
       (⟨["widecard"], []⟩, ⟨["wide", "card"], []⟩),
       (⟨[], ["wide\n  card"]⟩, ⟨[], ["wide\ncard"]⟩),
       (⟨[], ["x"]⟩, ⟨[], []⟩), (⟨[], ["x"]⟩, ⟨[], []⟩),
         (⟨[], ["x"]⟩, ⟨[], []⟩)] := by
  decide +kernel

end SelectorsWitness

end Component

end Scaffold

import Scaffold.Proofs.Markup.Scripts
import Scaffold.Proofs.Node.Preorder
/-!
What is written of attributes.  The steps of attributes in a script are those of
the tags that are shown, one behind the other, and without them the script is
that of the tree without attributes; so an attribute is written where its step
is, and nowhere else.  The two kinds of markup differ in one thing: the outlines
write what has no name.  Main statement: `render_spells`.
-/
namespace Scaffold

namespace Node

mutual

/-- A node with other tags, in the same shape. -/
def mapTags (f : Tag → Tag) : Node → Node
  | ⟨tag, children⟩ => ⟨f tag, mapTagsOf f children⟩

def mapTagsOf (f : Tag → Tag) : List Node → List Node
  | [] => []
  | n :: ns => mapTags f n :: mapTagsOf f ns

end

theorem tag_mapTags (f : Tag → Tag) (n : Node) :
    (mapTags f n).tag = f n.tag := by
  obtain ⟨tag, children⟩ := n
  rw [mapTags]

theorem map_tag_mapTagsOf (f : Tag → Tag) (ns : List Node) :
    (mapTagsOf f ns).map (·.tag) = (ns.map (·.tag)).map f := by
  induction ns with
  | nil => rfl
  | cons n ns ih =>
    rw [mapTagsOf, List.map_cons, tag_mapTags, ih, List.map_cons, List.map_cons]

theorem isEmpty_mapTagsOf (f : Tag → Tag) (ns : List Node) :
    (mapTagsOf f ns).isEmpty = ns.isEmpty := by
  cases ns <;> rfl

end Node

namespace Markup

namespace Step

def spelling? : Step → Option (Attribute × Spelling)
  | spell a spelling => some (a, spelling)
  | _ => none

def isForAttributes : Step → Bool
  | spell _ _ | separator _ => true
  | _ => false

/-- The attributes that a script writes, in the order in which it does. -/
def spellings (steps : List Step) : List (Attribute × Spelling) :=
  steps.filterMap spelling?

/-- A script without what is there for attributes only. -/
def bare (steps : List Step) : List Step := steps.filter (!·.isForAttributes)

/-- Steps with some attributes among them and the rest of the steps. -/
structure Parts (steps : List Step) (attributes : List (Attribute × Spelling))
    (rest : List Step) : Prop where
  spellings : Step.spellings steps = attributes
  bare : Step.bare steps = rest

end Step

namespace Tagged

mutual

/-- The tags of a node that tagged markup shows: nothing is seen of one without
name and value, nor of what is below it. -/
def shownTags : Node → List Tag
  | ⟨tag, children⟩ =>
    if tag.name.isSome || tag.value.isSome then tag :: shownTagsOf children
    else []

def shownTagsOf : List Node → List Tag
  | [] => []
  | n :: ns => shownTags n ++ shownTagsOf ns

end

def bareTag (t : Tag) : Tag :=
  { t with attributes := t.attributes.map fun _ => [] }

end Tagged

namespace Outline

/-- A tag without its attributes, but for shorthands without a value: these are
not written, and a `div` that has one goes without its name. -/
def bareTag (t : Tag) : Tag :=
  { t with
    attributes := t.attributes.map fun attributes =>
      (attributes.filter isShorthand).map fun a => { a with value := none } }

end Outline

/-- Whether a tag is of a text does not hang on the attributes that are in its
list. -/
theorem isText_map_attributes (t : Tag) (f : List Attribute → List Attribute) :
    ({ t with attributes := t.attributes.map f } : Tag).isText = t.isText := by
  rw [Tag.isText, Tag.isText, Option.isNone_map]

/-! ### What a script is made of -/

namespace Step

section Parts

variable {steps more rest rest' : List Step}
    {attributes others : List (Attribute × Spelling)}

theorem Parts.append (h : Parts steps attributes rest)
    (h' : Parts more others rest') :
    Parts (steps ++ more) (attributes ++ others) (rest ++ rest') where
  spellings := by
    rw [Step.spellings, List.filterMap_append, ← h.spellings, ← h'.spellings];
      rfl
  bare := by rw [Step.bare, List.filter_append, ← h.bare, ← h'.bare]; rfl

/-- Other steps in front. -/
theorem Parts.behind (h : Parts steps [] rest)
    (h' : Parts more attributes rest') :
    Parts (steps ++ more) attributes (rest ++ rest') := h.append h'

/-- Other steps behind. -/
theorem Parts.inFront (h : Parts steps attributes rest)
    (h' : Parts more [] rest') :
    Parts (steps ++ more) attributes (rest ++ rest') := by
  have hall := h.append h'
  rwa [List.append_nil] at hall

theorem parts_ofSpellings (attributes : List (Attribute × Spelling)) :
    Parts (ofSpellings attributes) attributes [] := by
  induction attributes with
  | nil => exact ⟨rfl, rfl⟩
  | cons x attributes ih =>
    have hfirst : Parts [.spell x.1 x.2] [x] [] := ⟨rfl, rfl⟩
    exact hfirst.append ih

end Parts

theorem parts_shift (n : Int) : Parts [.shift n] [] [.shift n] := ⟨rfl, rfl⟩

/-- Steps without attributes for all members of a list. -/
theorem parts_flatMap {α : Type} {script : α → List Step}
    (h : ∀ x, Parts (script x) [] (script x)) (xs : List α) :
    Parts (xs.flatMap script) [] (xs.flatMap script) := by
  induction xs with
  | nil => exact ⟨rfl, rfl⟩
  | cons x xs ih => exact (h x).behind ih

/-- Separators are there for attributes only. -/
theorem parts_intersperse (between : String)
    (attributes : List (Attribute × Spelling)) :
    Parts ((ofSpellings attributes).intersperse (.separator between))
      attributes [] := by
  match attributes with
  | [] => exact ⟨rfl, rfl⟩
  | [x] => exact ⟨rfl, rfl⟩
  | x :: y :: attributes =>
    have hfirst : Parts [.spell x.1 x.2, .separator between] [x] [] :=
      ⟨rfl, rfl⟩
    exact hfirst.append (parts_intersperse between (y :: attributes))

end Step

namespace Tagged

open Step

variable {o : Options} {t : Tag} {hasChildren : Bool}

section Bare

theorem isText_bareTag (t : Tag) : (bareTag t).isText = t.isText :=
  isText_map_attributes t _

theorem isTextTag_map_bareTag (t : Option Tag) :
    isTextTag (t.map bareTag) = isTextTag t := by
  cases t with
  | none => rfl
  | some t => exact isText_bareTag t

theorem isInline_bareTag (o : Options) (t : Tag) :
    isInline o (bareTag t) = isInline o t := by
  rw [isInline, isInline, bareTag, Option.isNone_map]

/-- The tags around a node without their attributes. -/
def Place.bare (place : Place) : Place :=
  ⟨place.parent.map bareTag, place.before.map bareTag, place.after.map bareTag⟩

theorem takeWhile_isInlineElement (o : Options) (tags : List Tag) :
    ((tags.map bareTag).takeWhile (isInlineElement o)).length =
      (tags.takeWhile (isInlineElement o)).length := by
  rw [List.takeWhile_map, List.length_map]
  rfl

theorem isLooseText_bare (place : Place) (t : Tag) (hasChildren : Bool) :
    isLooseText place.bare (bareTag t) hasChildren =
      isLooseText place t hasChildren := by
  rw [isLooseText, isLooseText, isText_bareTag, Place.bare, List.head?_map,
    List.head?_map, isTextTag_map_bareTag, isTextTag_map_bareTag]
  rfl

theorem isInLongRun_bare (o : Options) (place : Place) :
    isInLongRun o place.bare = isInLongRun o place := by
  simp only [isInLongRun, Place.bare, takeWhile_isInlineElement]

theorem meetsBlock_bare (o : Options) (place : Place) :
    meetsBlock o place.bare = meetsBlock o place := by
  obtain ⟨parent, before, after⟩ := place
  cases before with
  | nil =>
    have hall : (after.map bareTag).any (!isInline o ·) =
        after.any (!isInline o ·) := by
      rw [List.any_map]
      congr 1
      exact funext fun t => congrArg (!·) (isInline_bareTag o t)
    exact hall
  | cons previous before => exact congrArg (!·) (isInline_bareTag o previous)

theorem beginsLine?_bare (o : Options) (place : Place) (t : Tag)
    (hasChildren : Bool) :
    beginsLine? o place.bare (bareTag t) hasChildren =
      beginsLine? o place t hasChildren := by
  have hbefore : place.bare.before.isEmpty = place.before.isEmpty :=
    List.isEmpty_map
  have hafter : place.bare.after.isEmpty = place.after.isEmpty :=
    List.isEmpty_map
  have hnone : place.bare.parent.isNone = place.parent.isNone :=
    Option.isNone_map
  have hparent : isTextTag place.bare.parent = isTextTag place.parent :=
    isTextTag_map_bareTag place.parent
  rw [beginsLine?, beginsLine?, hbefore, hafter, hnone, hparent,
    isLooseText_bare, isInline_bareTag, meetsBlock_bare, isInLongRun_bare]

mutual

/-- Where lines begin does not hang on attributes, only on whether a tag has a
list of them. -/
theorem beginsLine_bare (o : Options) (place : Place) (n : Node) :
    beginsLine o place.bare (n.mapTags bareTag) = beginsLine o place n := by
  match n with
  | ⟨tag, children⟩ =>
    have hbelow := anyBeginsLine_bare o tag [] children
    rw [List.map_nil] at hbelow
    rw [Node.mapTags, beginsLine, beginsLine, beginsLine?_bare,
      Node.isEmpty_mapTagsOf, hbelow]

theorem anyBeginsLine_bare (o : Options) (parent : Tag) (before : List Tag)
    (ns : List Node) :
    anyBeginsLine o (bareTag parent) (before.map bareTag)
      (Node.mapTagsOf bareTag ns) =
      anyBeginsLine o parent before ns := by
  match ns with
  | [] => rfl
  | n :: ns =>
    have hfirst := beginsLine_bare o ⟨some parent, before, ns.map (·.tag)⟩ n
    have hrest := anyBeginsLine_bare o parent (n.tag :: before) ns
    rw [Node.mapTagsOf, anyBeginsLine, anyBeginsLine, Node.map_tag_mapTagsOf,
      Node.tag_mapTags, ← hfirst, ← hrest]
    rfl

end

end Bare

theorem spelled_bareTag (o : Options) (t : Tag) :
    spelled o (bareTag t) = [] := by
  have hnone : (bareTag t).attributeList = [] := by
    rw [Tag.attributeList, bareTag]
    cases t.attributes <;> rfl
  rw [spelled, hnone]
  exact ite_self _

theorem parts_onOwnLinesSteps (wanted : Bool) (ps : List Piece) :
    Parts (onOwnLinesSteps wanted [.pieces ps]) []
      (onOwnLinesSteps wanted [.pieces ps]) := by
  cases wanted <;> exact ⟨rfl, rfl⟩

section Content

variable {below otherwise rest rest' : List Step}
    {attributes others : List (Attribute × Spelling)}

theorem value_isSome_of_wrapping? {parts : List Piece × List Piece}
    (h : wrapping? t hasChildren = some parts) : t.value.isSome = true := by
  cases hvalue : t.value with
  | some value => rfl
  | none =>
    rw [wrapping?, hvalue] at h
    cases hasChildren <;> cases h

/-- Only what is below a node is of attributes in its content. -/
theorem parts_contentSteps (t : Tag) (hasChildren : Bool)
    {value : List Piece → List Step}
    (hvalue : ∀ v, Parts (value v) [] (value v))
    (hbelow : Parts below attributes rest)
    (hotherwise : Parts otherwise others rest') :
    Parts (contentSteps t hasChildren value below otherwise)
      (if t.value.isSome then attributes else others)
      (contentSteps t hasChildren value rest rest') := by
  rw [contentSteps, contentSteps]
  cases hwrap : wrapping? t hasChildren with
  | some parts =>
    obtain ⟨before, behind⟩ := parts
    have hfront : Parts [.pieces before, .hold] [] [.pieces before, .hold] :=
      ⟨rfl, rfl⟩
    have hend : Parts [.behind behind] [] [.behind behind] := ⟨rfl, rfl⟩
    rw [value_isSome_of_wrapping? hwrap]
    exact (hfront.behind hbelow).inFront hend
  | none =>
    cases t.value with
    | some v => exact (hvalue v).behind hbelow
    | none => exact hotherwise

/-- An element's own attributes come in front of those below it. -/
theorem parts_elementSteps {rawName : String}
    (hbelow : Parts below attributes rest)
    (hleaf : hasChildren = false → attributes = []) :
    Parts (elementSteps o t rawName hasChildren below)
      (spelled o t ++ attributes)
      (elementSteps o (bareTag t) rawName hasChildren rest) := by
  have hopening : Parts [.string ("<" ++ o.tagCase.apply rawName)] []
      [.string ("<" ++ o.tagCase.apply rawName)] := ⟨rfl, rfl⟩
  have hfront := hopening.behind (parts_ofSpellings (spelled o t))
  have hempty : (t.selfClosing && !hasChildren && t.value.isNone) =
      ((bareTag t).selfClosing && !hasChildren && (bareTag t).value.isNone) :=
    rfl
  rw [elementSteps, elementSteps, spelled_bareTag, ← hempty]
  refine hfront.append ?_
  split
  · next hown =>
    have hchildless : hasChildren = false := by simp_all
    rw [hleaf hchildless]
    exact ⟨rfl, rfl⟩
  · have hopened : Parts [.string ">"] [] [.string ">"] := ⟨rfl, rfl⟩
    have hclosing : Parts [.string ("</" ++ o.tagCase.apply rawName ++ ">")] []
        [.string ("</" ++ o.tagCase.apply rawName ++ ">")] := ⟨rfl, rfl⟩
    have hotherwise :
        Parts (if hasChildren then below else caretSteps o rawName) attributes
          (if hasChildren then rest else caretSteps o rawName) := by
      cases hasChildren with
      | true => exact hbelow
      | false =>
        rw [hleaf rfl]
        exact parts_onOwnLinesSteps _ caret
    have hcontent := parts_contentSteps t hasChildren
      (fun v => parts_onOwnLinesSteps (v.any spansLines || beginsWithBlock o v)
        v) hbelow hotherwise
    rw [ite_self] at hcontent
    exact (hopened.behind hcontent).inFront hclosing

end Content

theorem parts_finishSteps (place : Place) (begins : Bool) :
    Parts (finishSteps place begins) [] (finishSteps place.bare begins) := by
  have hafter : place.bare.after.isEmpty = place.after.isEmpty :=
    List.isEmpty_map
  have hsome : place.bare.parent.isSome = place.parent.isSome :=
    Option.isSome_map
  have hparent : isTextTag place.bare.parent = isTextTag place.parent :=
    isTextTag_map_bareTag place.parent
  rw [finishSteps, finishSteps, hafter, hsome, hparent]
  split <;> exact ⟨rfl, rfl⟩

theorem indentStep_bare (o : Options) (parent : Option Tag) :
    indentStep o (parent.map bareTag) = indentStep o parent := by
  cases parent with
  | none => rfl
  | some t =>
    rw [Option.map_some, indentStep, indentStep, isText_bareTag]
    rfl

mutual

theorem parts_nodeSteps (o : Options) (place : Place) (n : Node) :
    Parts (nodeSteps o place n) ((shownTags n).flatMap (spelled o))
      (nodeSteps o place.bare (n.mapTags bareTag)) := by
  match n with
  | ⟨tag, children⟩ =>
    have hbelow := parts_nodesSteps o (some tag) [] children
    have hbegins := beginsLine_bare o place ⟨tag, children⟩
    have hstep : indentStep o place.bare.parent = indentStep o place.parent :=
      indentStep_bare o place.parent
    rw [Node.mapTags] at hbegins ⊢
    have hbare : (bareTag tag).name = tag.name := rfl
    rw [nodeSteps, nodeSteps, hbegins, hstep, hbare, shownTags,
      Node.isEmpty_mapTagsOf]
    generalize beginsLine o place ⟨tag, children⟩ = begins
    have hline : Parts (if begins then [Step.line 0] else []) []
        (if begins then [Step.line 0] else []) := by
      split <;> exact ⟨rfl, rfl⟩
    refine Parts.inFront (.inFront (.behind ((parts_shift _).behind hline) ?_)
      (parts_finishSteps place begins)) (parts_shift _)
    cases hname : tag.name with
    | some name =>
      have hleaf : (!children.isEmpty) = false →
          (shownTagsOf children).flatMap (spelled o) = [] := by
        intro hempty
        obtain rfl : children = [] := by simpa using hempty
        rfl
      exact parts_elementSteps hbelow hleaf
    | none =>
      have hnothing : spelled o tag = [] := by rw [spelled, hname]; rfl
      have hvalue : ∀ v, Parts [.pieces v] [] [.pieces v] := fun _ => ⟨rfl, rfl⟩
      have hempty : Parts [] [] [] := ⟨rfl, rfl⟩
      have hcontent :=
        parts_contentSteps tag (!children.isEmpty) hvalue hbelow hempty
      rw [Option.isSome_none, Bool.false_or]
      cases hsome : tag.value.isSome with
      | true =>
        rw [hsome] at hcontent
        rw [if_pos rfl, List.flatMap_cons, hnothing]
        exact hcontent
      | false =>
        rw [hsome] at hcontent
        exact hcontent

theorem parts_nodesSteps (o : Options) (parent : Option Tag) (before : List Tag)
    (ns : List Node) :
    Parts (nodesSteps o parent before ns) ((shownTagsOf ns).flatMap (spelled o))
      (nodesSteps o (parent.map bareTag) (before.map bareTag)
        (Node.mapTagsOf bareTag ns)) := by
  match ns with
  | [] => exact ⟨rfl, rfl⟩
  | n :: ns =>
    have hfirst := parts_nodeSteps o ⟨parent, before, ns.map (·.tag)⟩ n
    have hrest := parts_nodesSteps o parent (n.tag :: before) ns
    rw [nodesSteps, shownTagsOf, Node.mapTagsOf, nodesSteps,
      List.flatMap_append, Node.map_tag_mapTagsOf, Node.tag_mapTags]
    exact hfirst.append hrest

end

end Tagged

namespace Outline

open Step

variable {c : Config} {style : OutlineStyle}

theorem isText_bareTag (t : Tag) : (bareTag t).isText = t.isText :=
  isText_map_attributes t _

theorem attributeList_bareTag (t : Tag) :
    (bareTag t).attributeList = (t.attributeList.filter isShorthand).map
      fun a => { a with value := none } := by
  rw [Tag.attributeList, Tag.attributeList, bareTag]
  cases t.attributes <;> rfl

/-- All that is left are shorthands. -/
theorem isShorthand_of_mem_bareTag {t : Tag} {a : Attribute}
    (h : a ∈ (bareTag t).attributeList) :
    isShorthand a = true ∧ a.value = none := by
  rw [attributeList_bareTag, List.mem_map] at h
  obtain ⟨b, hb, rfl⟩ := h
  exact ⟨(List.mem_filter.1 hb).2, rfl⟩

theorem spelledShorthands_bareTag (t : Tag) :
    spelledShorthands (bareTag t) = [] := by
  rw [spelledShorthands, List.filterMap_eq_nil_iff]
  intro a ha
  rw [shorthand?, (isShorthand_of_mem_bareTag (List.mem_of_mem_filter ha)).2]
  rfl

theorem spelledOthers_bareTag (c : Config) (style : OutlineStyle) (t : Tag) :
    spelledOthers c style (bareTag t) = [] := by
  have hnone : (bareTag t).attributeList.filter (!isShorthand ·) = [] := by
    rw [List.filter_eq_nil_iff]
    intro a ha
    rw [(isShorthand_of_mem_bareTag ha).1]
    decide
  rw [spelledOthers, hnone]
  rfl

theorem isEmpty_shorthands_bareTag (t : Tag) :
    ((bareTag t).attributeList.filter isShorthand).isEmpty =
      (t.attributeList.filter isShorthand).isEmpty := by
  have hall : (bareTag t).attributeList.filter isShorthand =
      (bareTag t).attributeList :=
    List.filter_eq_self.2 fun a ha => (isShorthand_of_mem_bareTag ha).1
  rw [hall, attributeList_bareTag, List.isEmpty_map]

theorem parts_attributesSteps (style : OutlineStyle)
    (spellings : List (Attribute × Spelling)) :
    Parts (attributesSteps style spellings) spellings [] := by
  rw [attributesSteps]
  split
  · next hempty =>
    rw [List.isEmpty_iff.1 hempty]
    exact ⟨rfl, rfl⟩
  · have hmark : ∀ s, Parts [.separator s] [] [] := fun _ => ⟨rfl, rfl⟩
    exact ((hmark _).behind (parts_intersperse _ spellings)).inFront (hmark _)

theorem parts_headSteps (c : Config) (style : OutlineStyle) (t : Tag) :
    Parts (headSteps c style t) (spelled c style t)
      (headSteps c style (bareTag t)) := by
  have hname : Parts (nameSteps style t) [] (nameSteps style (bareTag t)) := by
    have hsame : (bareTag t).name = t.name := rfl
    rw [nameSteps, nameSteps, hsame, isEmpty_shorthands_bareTag]
    cases t.name with
    | none => exact ⟨rfl, rfl⟩
    | some name =>
      dsimp only
      split <;> exact ⟨rfl, rfl⟩
  have hhead := (hname.behind (parts_ofSpellings (spelledShorthands t))).append
    (parts_attributesSteps style (spelledOthers c style t))
  rw [headSteps, headSteps, spelledShorthands_bareTag, spelledOthers_bareTag]
  exact hhead

theorem parts_lineSteps (style : OutlineStyle) (width : Nat)
    (line : List Piece) :
    Parts (lineSteps style width line) [] (lineSteps style width line) := by
  rw [lineSteps]
  split <;> split <;> exact ⟨rfl, rfl⟩

theorem parts_valueSteps (t : Tag) (value : List Piece) :
    Parts (valueSteps style t value) []
      (valueSteps style (bareTag t) value) := by
  have hline :
      Parts ((if t.isText then [] else [.push " "]) ++ [.pieces value]) []
        ((if t.isText then [] else [.push " "]) ++ [.pieces value]) := by
    split <;> exact ⟨rfl, rfl⟩
  rw [valueSteps.eq_def, valueSteps.eq_def, isText_bareTag]
  rcases valueLines value with _ | ⟨first, _ | ⟨next, lines⟩⟩
  · exact hline
  · exact hline
  · have hlines := parts_flatMap (parts_lineSteps style
      (((first :: next :: lines).map lineLength).foldl max 0))
      (first :: next :: lines)
    exact ((parts_shift 1).behind hlines).behind (parts_shift (-1))

mutual

theorem parts_nodeSteps (isTop isFirst : Bool) (n : Node) :
    Parts (nodeSteps c style isTop isFirst n)
      (n.preorder.flatMap (spelled c style))
      (nodeSteps c style isTop isFirst (n.mapTags bareTag)) := by
  match n with
  | ⟨tag, children⟩ =>
    have hbelow := parts_nodesSteps false true children
    have hline : Parts (if (isTop && isFirst) || tag.isText then []
        else [Step.line 0]) []
        (if (isTop && isFirst) || tag.isText then [] else [Step.line 0]) := by
      split <;> exact ⟨rfl, rfl⟩
    have hfront := ((parts_shift (if isTop then 0 else 1)).behind hline).behind
      (parts_headSteps c style tag)
    have hvalue : Parts
        (match shownValue c.hooks tag (!children.isEmpty) with
          | some value => valueSteps style tag value
          | none => []) []
        (match shownValue c.hooks tag (!children.isEmpty) with
          | some value => valueSteps style (bareTag tag) value
          | none => []) := by
      cases shownValue c.hooks tag (!children.isEmpty) with
      | some value => exact parts_valueSteps tag value
      | none => exact ⟨rfl, rfl⟩
    have hshown : shownValue c.hooks (bareTag tag) = shownValue c.hooks tag :=
      rfl
    have hown : ((bareTag tag).selfClosing && (bareTag tag).value.isNone) =
        (tag.selfClosing && tag.value.isNone) := rfl
    rw [Node.mapTags, nodeSteps, nodeSteps, Node.preorder_mk, List.flatMap_cons,
      isText_bareTag, Node.isEmpty_mapTagsOf, hshown, hown]
    refine Parts.inFront (hfront.append ?_) (parts_shift _)
    split
    · next hclosed =>
      obtain rfl : children = [] := by simp_all
      exact ⟨rfl, rfl⟩
    · exact hvalue.behind hbelow

theorem parts_nodesSteps (isTop isFirst : Bool) (ns : List Node) :
    Parts (nodesSteps c style isTop isFirst ns)
      ((Node.preorders ns).flatMap (spelled c style))
      (nodesSteps c style isTop isFirst (Node.mapTagsOf bareTag ns)) := by
  match ns with
  | [] => exact ⟨rfl, rfl⟩
  | n :: ns =>
    rw [nodesSteps, Node.mapTagsOf, nodesSteps, Node.preorders_cons,
      List.flatMap_append]
    exact (parts_nodeSteps isTop isFirst n).append
      (parts_nodesSteps isTop false ns)

end

end Outline

/-! ### All dialects -/

/-- The tags of a tree that are shown: in an outline all of them. -/
def shownTags (c : Config) (nodes : List Node) : List Tag :=
  match c.outlineStyle? with
  | some _ => Node.preorders nodes
  | none => Tagged.shownTagsOf nodes

def spelled (c : Config) (t : Tag) : List (Attribute × Spelling) :=
  match c.outlineStyle? with
  | some style => Outline.spelled c style t
  | none => Tagged.spelled c.options t

/-- A tag without what is written of its attributes. -/
def bareTag (c : Config) (t : Tag) : Tag :=
  match c.outlineStyle? with
  | some _ => Outline.bareTag t
  | none => Tagged.bareTag t

/-- Whether an attribute of a tag is written.  An outline asks a shorthand for a
value, and nothing for a name; tagged markup asks both the tag and the attribute
for one. -/
def isSpelled (c : Config) (t : Tag) (a : Attribute) : Bool :=
  match c.outlineStyle? with
  | some _ => if Outline.isShorthand a then a.value.isSome else isWritten a
  | none => t.name.isSome && a.name.isSome && isWritten a

/-- The spelling of an attribute with a name and a value: in an outline a
shorthand if it is a class or an identifier, and else the name in its letter
case, an equals sign and the value in quotes. Names, values and quotes are
changed in component markup only. -/
def Spelling.Shows (c : Config) (a : Attribute) (name : String)
    (value : List Piece) : Spelling → Prop
  | .shorthand mark shown =>
    c.outlineStyle?.isSome = true ∧
      (name = "class" ∧ mark = "." ∧ shown = value.map Outline.dotted ∨
        name = "id" ∧ mark = "#" ∧ shown = value)
  | .assigned text marks shown =>
    (c.outlineStyle?.isSome = true → name ≠ "class" ∧ name ≠ "id" ∧
      text = c.options.attributeCase.apply name ∧ marks = quotes c.options a ∧
      shown = value) ∧
      (c.outlineStyle?.isSome = false →
        let form := Tagged.form c.options a name
        text = " " ++ form.name ∧ marks = form.quotes ∧
          form.value = some shown ∧
          (c.options.jsx = false → form.name = c.options.attributeCase.apply
            name ∧ form.quotes = quotes c.options a ∧ shown = value))
  | .valueless _ _ => False

namespace Tagged

mutual

theorem shownTags_eq {n : Node}
    (h : Node.AllTags (fun t => t.name.isSome || t.value.isSome) [n]) :
    shownTags n = n.preorder := by
  match n with
  | ⟨tag, children⟩ =>
    obtain ⟨htag, hchildren, -⟩ := Node.allTags_cons.1 h
    rw [shownTags, if_pos htag, shownTagsOf_eq hchildren, Node.preorder_mk]

theorem shownTagsOf_eq {ns : List Node}
    (h : Node.AllTags (fun t => t.name.isSome || t.value.isSome) ns) :
    shownTagsOf ns = Node.preorders ns := by
  match ns with
  | [] => rw [shownTagsOf, Node.preorders_nil]
  | n :: ns =>
    obtain ⟨hn, hns⟩ := Node.allTags_cons_iff.1 h
    rw [shownTagsOf, shownTags_eq hn, shownTagsOf_eq hns, Node.preorders_cons]

end

theorem map_fst_spelled (o : Options) (t : Tag) :
    (spelled o t).map Prod.fst =
      t.attributeList.filter fun a => t.name.isSome && a.name.isSome &&
        isWritten a := by
  rw [spelled]
  cases t.name.isSome with
  | false => simp
  | true =>
    rw [if_pos rfl]
    induction t.attributeList with
    | nil => rfl
    | cons a attributes ih =>
      cases hname : a.name with
      | none => cases hwritten : isWritten a <;> simp_all
      | some name => cases hwritten : isWritten a <;> simp_all

/-- What has a value is written with one. -/
theorem isSome_value_form (o : Options) {a : Attribute} {value : List Piece}
    (hvalue : a.value = some value) (name : String) :
    (form o a name).value.isSome = true := by
  have hbase : (baseForm o a name).value.isSome = true := by
    rw [baseForm]
    dsimp only
    split
    · rw [hvalue]
      rfl
    · split
      · rfl
      · rw [hvalue]
        rfl
  rw [form]
  dsimp only
  rw [if_pos hbase, hbase]

theorem shows_of_mem_spelled {c : Config} (tagged : c.outlineStyle? = none)
    {t : Tag} {a : Attribute} {name : String} {value : List Piece}
    (hname : a.name = some name) (hvalue : a.value = some value) {s : Spelling}
    (h : (a, s) ∈ spelled c.options t) : s.Shows c a name value := by
  have hs : s = spelling c.options a name := by
    rw [spelled] at h
    split at h
    · obtain ⟨b, -, hb⟩ := List.mem_filterMap.1 h
      obtain ⟨own, hown, heq⟩ := Option.map_eq_some_iff.1 hb
      obtain ⟨rfl, rfl⟩ := Prod.mk.inj heq
      rw [hname] at hown
      rw [Option.some.inj hown]
    · cases h
  obtain ⟨shown, hshown⟩ :=
    Option.isSome_iff_exists.1 (isSome_value_form c.options hvalue name)
  rw [hs, spelling, hshown]
  refine ⟨fun houtline => ?_, fun _ => ⟨rfl, rfl, hshown, fun hplain => ?_⟩⟩
  · rw [tagged] at houtline
    cases houtline
  · have hbase : baseForm c.options a name =
        ⟨name, a.value, quotes c.options a⟩ := by
      rw [baseForm, hplain]
      rfl
    rw [form, hbase, hvalue] at hshown ⊢
    exact ⟨rfl, rfl, (Option.some.inj hshown).symm⟩

end Tagged

namespace Outline

/-- Shorthands are written before the other attributes. -/
theorem perm_spelled (c : Config) (style : OutlineStyle) (t : Tag) :
    ((spelled c style t).map Prod.fst).Perm
      (t.attributeList.filter fun a => if isShorthand a then a.value.isSome
        else isWritten a) := by
  have hshorthands : (spelledShorthands t).map Prod.fst =
      (t.attributeList.filter isShorthand).filter (·.value.isSome) := by
    rw [spelledShorthands]
    induction t.attributeList.filter isShorthand with
    | nil => rfl
    | cons a attributes ih => cases hvalue : a.value <;> simp_all [shorthand?]
  have hothers : (spelledOthers c style t).map Prod.fst =
      (t.attributeList.filter (!isShorthand ·)).filter isWritten := by
    rw [spelledOthers, List.map_map]
    exact List.map_id _
  have hall := (List.filter_append_perm isShorthand t.attributeList).filter
    fun a => if isShorthand a then a.value.isSome else isWritten a
  rw [spelled, List.map_append, hshorthands, hothers]
  refine List.Perm.trans (.of_eq ?_) hall
  rw [List.filter_append]
  congr 1
  · apply List.filter_congr
    intro a ha
    rw [if_pos (List.mem_filter.1 ha).2]
  · apply List.filter_congr
    intro a ha
    have hother : ¬ isShorthand a = true := by
      simpa using (List.mem_filter.1 ha).2
    rw [if_neg hother]

theorem shows_of_mem_spelled {c : Config} {style : OutlineStyle}
    (hstyle : c.outlineStyle? = some style) {t : Tag} {a : Attribute}
    {name : String} {value : List Piece} (hname : a.name = some name)
    (hvalue : a.value = some value) {s : Spelling}
    (h : (a, s) ∈ spelled c style t) : s.Shows c a name value := by
  have houtline : c.outlineStyle?.isSome = true := by rw [hstyle]; rfl
  have hidentical : ∀ other, a.hasName other = true ↔ name = other := by
    intro other
    rw [Attribute.hasName, hname, beq_iff_eq, Option.some_inj]
  rw [spelled, List.mem_append] at h
  rcases h with h | h
  · obtain ⟨b, hb, heq⟩ := List.mem_filterMap.1 h
    obtain ⟨shorthand, hown, hpair⟩ := Option.map_eq_some_iff.1 heq
    obtain ⟨rfl, rfl⟩ := Prod.mk.inj hpair
    have hshort := (List.mem_filter.1 hb).2
    rw [isShorthand, Bool.or_eq_true, hidentical, hidentical] at hshort
    rw [shorthand?, hvalue, Option.map_some] at hown
    obtain rfl := Option.some.inj hown
    by_cases hclass : name = "class"
    · rw [if_pos ((hidentical "class").2 hclass)]
      exact ⟨houtline, .inl ⟨hclass, rfl, rfl⟩⟩
    · rw [if_neg (mt (hidentical "class").1 hclass)]
      exact ⟨houtline, .inr ⟨hshort.resolve_left hclass, rfl, rfl⟩⟩
  · obtain ⟨b, hb, heq⟩ := List.mem_map.1 h
    obtain ⟨rfl, rfl⟩ := Prod.mk.inj heq
    have hother : ¬ isShorthand b = true := by
      simpa using (List.mem_filter.1 (List.mem_of_mem_filter hb)).2
    rw [isShorthand, Bool.or_eq_true, hidentical, hidentical, not_or] at hother
    rw [spelling, hvalue, hname, Option.isNone_some, Bool.and_false]
    refine ⟨fun _ => ⟨hother.1, hother.2, rfl, rfl, rfl⟩, fun hnone => ?_⟩
    rw [houtline] at hnone
    cases hnone

end Outline

theorem parts_script (c : Config) (nodes : List Node) :
    Step.Parts (script c nodes) ((shownTags c nodes).flatMap (spelled c))
      (script c (Node.mapTagsOf (bareTag c) nodes)) := by
  rw [script, script, shownTags, funext (spelled.eq_def c),
    funext (bareTag.eq_def c)]
  cases c.outlineStyle? with
  | some style => exact Outline.parts_nodesSteps true true nodes
  | none => exact Tagged.parts_nodesSteps c.options none [] nodes

/-- What is hidden in tagged markup is below tags without name and value. -/
theorem shownTags_eq_preorders {c : Config} {nodes : List Node}
    (h : c.outlineStyle?.isSome = true ∨
      Node.AllTags (fun t => t.name.isSome || t.value.isSome) nodes) :
    shownTags c nodes = Node.preorders nodes := by
  rw [shownTags]
  cases hstyle : c.outlineStyle? with
  | some style => rfl
  | none =>
    rw [hstyle] at h
    exact Tagged.shownTagsOf_eq (h.resolve_left (by decide))

theorem perm_spelled (c : Config) (t : Tag) :
    ((spelled c t).map Prod.fst).Perm
      (t.attributeList.filter (isSpelled c t)) := by
  rw [spelled, funext (isSpelled.eq_def c t)]
  cases c.outlineStyle? with
  | some style => exact Outline.perm_spelled c style t
  | none => exact .of_eq (Tagged.map_fst_spelled c.options t)

section Spelled

variable {c : Config} {t : Tag} {a : Attribute}

theorem isSpelled_of_name_eq_none (hname : a.name = none) :
    isSpelled c t a = (c.outlineStyle?.isSome && isWritten a) := by
  have hother : Outline.isShorthand a = false := by
    rw [Outline.isShorthand, Attribute.hasName, Attribute.hasName, hname]
    rfl
  rw [isSpelled, hname, hother]
  cases c.outlineStyle? with
  | some style => rfl
  | none => simp

variable {name : String} {value : List Piece} (hname : a.name = some name)
  (hvalue : a.value = some value)

include hname hvalue

theorem isSpelled_of_isWritten (hwritten : isWritten a = true)
    (hshown : c.outlineStyle?.isSome = true ∨ t.name.isSome = true) :
    isSpelled c t a = true := by
  rw [isSpelled, hname, hvalue, hwritten]
  cases hstyle : c.outlineStyle? with
  | some style => simp
  | none =>
    rw [hstyle] at hshown
    rw [hshown.resolve_left (by decide)]
    rfl

theorem shows_of_mem_spelled {spelling : Spelling}
    (h : (a, spelling) ∈ spelled c t) : spelling.Shows c a name value := by
  rw [spelled] at h
  cases hstyle : c.outlineStyle? with
  | some style =>
    rw [hstyle] at h
    exact Outline.shows_of_mem_spelled hstyle hname hvalue h
  | none =>
    rw [hstyle] at h
    exact Tagged.shows_of_mem_spelled hstyle hname hvalue h

end Spelled

/-- Writing a tree is the run of a script, in which the attributes of all tags
that are shown are steps, one behind the other, and which is without them the
script of the tree without attributes. Of a tag that is shown each attribute
that is written is written once.  One without a name is written in an outline
only, but there as any other.  One with a name and a value is written if it is
not left out as an implied one, as a shorthand if it is a class or an identifier
in an outline, and else with an equals sign between its name and its value. -/
theorem render_spells (c : Config) (nodes : List Node) :
    Node.render c nodes = (Step.run c (script c nodes) ({}, [])).1.out.text ∧
      Step.spellings (script c nodes) =
        (shownTags c nodes).flatMap (spelled c) ∧
      Step.bare (script c nodes) = script c (Node.mapTagsOf (bareTag c) nodes) ∧
      (c.outlineStyle?.isSome = true ∨
          Node.AllTags (fun t => t.name.isSome || t.value.isSome) nodes →
        shownTags c nodes = Node.preorders nodes) ∧
      ∀ t : Tag,
        ((spelled c t).map Prod.fst).Perm
          (t.attributeList.filter (isSpelled c t)) ∧
          (∀ a : Attribute, a.name = none →
            isSpelled c t a = (c.outlineStyle?.isSome && isWritten a)) ∧
          ∀ (a : Attribute) (name : String) (value : List Piece),
          a.name = some name →
            a.value = some value → isWritten a = true →
            c.outlineStyle?.isSome = true ∨ t.name.isSome = true →
            isSpelled c t a = true ∧
              ∀ spelling, (a, spelling) ∈ spelled c t →
              spelling.Shows c a name value := by
  obtain ⟨hspellings, hbare⟩ := parts_script c nodes
  refine ⟨render_eq_run c nodes, hspellings, hbare, shownTags_eq_preorders,
    fun t => ?_⟩
  refine ⟨perm_spelled c t, fun a => isSpelled_of_name_eq_none, ?_⟩
  intro a name value hname hvalue hwritten hshown
  exact ⟨isSpelled_of_isWritten hname hvalue hwritten hshown,
    fun spelling => shows_of_mem_spelled hname hvalue⟩

namespace SpellingWitness

def outlined : Config := { dialect := .pug, snippets := {} }

def tagged : Config := { snippets := {} }

def titled : Attribute := { name := some "title", value := some [.text "x"] }

def nameless : Attribute :=
  { value := some [.text "foo"], kind := .doubleQuoted }

def tag : Tag :=
  { name := some "p"
    attributes := some
      [titled, nameless,
        { name := some "class", value := some [.text "a b"] }] }

/-- Both kinds of markup write the title; what has no name is written by the
outline. -/
theorem render_spells_titled :
    (titled.name = some "title" ∧ titled.value = some [.text "x"] ∧
      isWritten titled = true) ∧
      (Node.render outlined [⟨tag, []⟩] = "p.a.b(title=\"x\", =\"foo\")" ∧
        isSpelled outlined tag titled = true ∧
          isSpelled outlined tag nameless = true) ∧
      Node.render tagged [⟨tag, []⟩] = "<p title=\"x\" class=\"a b\"></p>" ∧
        isSpelled tagged tag titled = true ∧
        isSpelled tagged tag nameless = false := by
  obtain ⟨-, -, -, -, houtlined⟩ := render_spells outlined [⟨tag, []⟩]
  obtain ⟨-, -, -, -, htagged⟩ := render_spells tagged [⟨tag, []⟩]
  obtain ⟨-, hunnamed, hnamed⟩ := houtlined tag
  obtain ⟨-, hunnamed', hnamed'⟩ := htagged tag
  have hwritten : isWritten titled = true := by decide
  refine ⟨⟨rfl, rfl, hwritten⟩, ⟨by decide +kernel, ?_, ?_⟩,
    by decide +kernel, ?_, ?_⟩
  · exact (hnamed titled "title" _ rfl rfl hwritten (.inl rfl)).1
  · rw [hunnamed nameless rfl]
    decide
  · exact (hnamed' titled "title" _ rfl rfl hwritten (.inr rfl)).1
  · exact hunnamed' nameless rfl

def paragraph : Node :=
  ⟨{ name := some "p", attributes := some [nameless] }, []⟩

theorem tree_paragraph (c : Config) (h : c = outlined ∨ c = tagged) :
    Expansion.tree c "p[\"foo\"]" = .ok ⟨[paragraph], [], 0⟩ := by
  rw [paragraph, nameless]
  rcases h with rfl | rfl
  · rw [outlined]
    cbv
  · rw [tagged]
    cbv

/-- An outline writes the value without a name, with nothing in front of the
equals sign; tagged markup leaves it out. -/
theorem nameless_spelled :
    nameless.name = none ∧
      (expand outlined "p[\"foo\"]").map (·.result) = .ok "p(=\"foo\")" ∧
      Step.spellings (script outlined [paragraph]) =
        [(nameless, .assigned "" ("\"", "\"") [.text "foo"])] ∧
      (expand tagged "p[\"foo\"]").map (·.result) = .ok "<p></p>" ∧
      Step.spellings (script tagged [paragraph]) = [] := by
  have houtline : Node.render outlined [paragraph] = "p(=\"foo\")" := by
    decide +kernel
  have hmarkup : Node.render tagged [paragraph] = "<p></p>" := by decide +kernel
  refine ⟨rfl, ?_, rfl, ?_, rfl⟩
  · rw [expand, tree_paragraph outlined (.inl rfl)]
    exact congrArg Except.ok houtline
  · rw [expand, tree_paragraph tagged (.inr rfl)]
    exact congrArg Except.ok hmarkup

end SpellingWitness

end Markup

end Scaffold

import Scaffold.Expansion
import Scaffold.Proofs.Markup.Ink
/-!
Tagged markup against a plain serializer, which knows nothing of lines, of
neighbours or of inline elements.  The two differ in white space only, under
every layout; so no layout adds, drops, doubles or moves anything.  Main
statement: `ink_render_eq_plain`.
-/
namespace Scaffold.Markup

/-- The options that only say where lines begin and what they begin with. -/
structure Layout where
  format : Bool
  indent : String
  baseIndent : String
  newline : String
  formatSkip : List String
  formatForce : List String
  formatLeafNode : Bool
  inlineBreak : Nat

/-- The configuration with another layout. -/
def Layout.apply (l : Layout) (c : Config) : Config :=
  { c with options := { c.options with
      format := l.format
      indent := l.indent
      baseIndent := l.baseIndent
      newline := l.newline
      formatSkip := l.formatSkip
      formatForce := l.formatForce
      formatLeafNode := l.formatLeafNode
      inlineBreak := l.inlineBreak } }

namespace Plain

/-- An attribute behind a space; nothing if it has no name. -/
def attributeText (o : Options) (a : Attribute) : String :=
  match a.name with
  | none => ""
  | some name =>
    let f := Tagged.form o a name
    match f.value with
    | some value =>
      " " ++ f.name ++ "=" ++ f.quotes.1 ++ Piece.plainText value ++ f.quotes.2
    | none =>
      if o.selfClosing = .html then " " ++ f.name
      else " " ++ f.name ++ "=" ++ f.quotes.1 ++ f.quotes.2

def attributesText (o : Options) (t : Tag) : String :=
  String.join ((t.attributeList.filter isWritten).map (attributeText o))

/-- Pieces around other markup, which takes the place of their first field; it
comes behind pieces without one. -/
def around (below : String) : List Piece → String
  | [] => below
  | .text s :: ps => s ++ around below ps
  | .field _ _ :: ps => below ++ Piece.plainText ps

/-- What stands between the tags of a node, or in place of a nameless one. -/
def body (t : Tag) (hasChildren : Bool) (below : String) : String :=
  if hasChildren then around below (t.value.getD [])
  else Piece.plainText (t.value.getD [])

def element (o : Options) (t : Tag) (rawName : String) (hasChildren : Bool)
    (below : String) : String :=
  let name := o.tagCase.apply rawName
  if t.selfClosing && !hasChildren && t.value.isNone then
    "<" ++ name ++ attributesText o t ++
      Tagged.selfClosingMark o.selfClosing ++ ">"
  else
    "<" ++ name ++ attributesText o t ++ ">" ++ body t hasChildren below ++
      "</" ++ name ++ ">"

mutual

/-- The plain serialization of a node. -/
def node (o : Options) : Node → String
  | ⟨tag, children⟩ =>
    match tag.name with
    | some name => element o tag name (!children.isEmpty) (forest o children)
    | none => body tag (!children.isEmpty) (forest o children)

def forest (o : Options) : List Node → String
  | [] => ""
  | n :: ns => node o n ++ forest o ns

end

end Plain

mutual

/-- Every nameless node in a tree has a value. -/
def isValued : Node → Bool
  | ⟨tag, children⟩ =>
    (tag.name.isSome || tag.value.isSome) && areValued children

def areValued : List Node → Bool
  | [] => true
  | n :: ns => isValued n && areValued ns

end

namespace Tagged

variable {c : Config}

theorem ink_writeAttribute (h : AddsOnlyBlanks c) (p : Page) (a : Attribute) :
    (writeAttribute c p a).ink =
      p.ink ++ ink (Plain.attributeText c.options a) := by
  rw [writeAttribute, Plain.attributeText]
  cases a.name with
  | none => simp
  | some name =>
    cases hvalue : (form c.options a name).value with
    | some value => simp [hvalue, Page.ink_string h, Page.ink_pieces h]
    | none =>
      simp only [hvalue]
      split <;> simp [Page.ink_string h]

theorem ink_foldl_writeAttribute (h : AddsOnlyBlanks c)
    (attributes : List Attribute) (p : Page) :
    (attributes.foldl (writeAttribute c) p).ink =
      p.ink ++
        ink (String.join (attributes.map (Plain.attributeText c.options))) := by
  induction attributes generalizing p with
  | nil => simp
  | cons a attributes ih =>
    rw [List.foldl_cons, ih, ink_writeAttribute h, List.map_cons,
      String.join_cons, ink_append, List.append_assoc]

/-- Blanks that a text behind nodes loses are no ink. -/
theorem ink_writeBehind (h : AddsOnlyBlanks c) (brokeLine : Bool)
    (behind : List Piece) (p : Page) :
    (writeBehind c brokeLine behind p).ink =
      p.ink ++ ink (Piece.plainText behind) := by
  rw [writeBehind.eq_def]
  split
  · rename_i s rest
    have hrest : rest.isEmpty = true → ink (Piece.plainText rest) = [] := by
      intro hempty
      rw [List.isEmpty_iff.1 hempty, ink_plainText_nil]
    dsimp only
    split
    · rename_i hempty
      rw [Page.ink_string h, ink_dropBlanks, ink_plainText_cons, hrest hempty,
        List.append_nil]
      rfl
    · rw [Page.ink_pieces h, Page.ink_string h, ink_dropBlanks,
        ink_plainText_cons, List.append_assoc]
      rfl
  · simp
  · exact Page.ink_pieces h p behind

/-- Markup takes the place of the field that a value is cut at. -/
theorem around_of_cutAtField? {value before behind : List Piece}
    (hcut : cutAtField? value = some (before, behind)) (below : String) :
    Plain.around below value = Piece.plainText before ++ below ++
      Piece.plainText behind := by
  induction value generalizing before with
  | nil => simp [cutAtField?] at hcut
  | cons piece value ih =>
    cases piece with
    | field index name =>
      simp only [cutAtField?, Option.some.injEq, Prod.mk.injEq] at hcut
      obtain ⟨rfl, rfl⟩ := hcut
      simp [Plain.around, Piece.plainText]
    | text s =>
      simp only [cutAtField?, Option.map_eq_some_iff, Prod.mk.injEq,
        Prod.exists] at hcut
      obtain ⟨before', _, hcut, rfl, rfl⟩ := hcut
      rw [Plain.around, ih hcut]
      simp [Piece.plainText, Piece.plain, String.append_assoc]

/-- Markup comes behind a value that cannot be cut. -/
theorem around_of_cutAtField?_eq_none {value : List Piece}
    (hcut : cutAtField? value = none) (below : String) :
    Plain.around below value = Piece.plainText value ++ below := by
  induction value with
  | nil => simp [Plain.around, Piece.plainText]
  | cons piece value ih =>
    cases piece with
    | field index name => simp [cutAtField?] at hcut
    | text s =>
      simp only [cutAtField?, Option.map_eq_none_iff] at hcut
      rw [Plain.around, ih hcut]
      simp [Piece.plainText, Piece.plain, String.append_assoc]

/-- Nodes that add the ink of a text add it in the midst of a value around
them. -/
theorem ink_wrapAround? (h : AddsOnlyBlanks c) {t : Tag} {hasChildren : Bool}
    {below : Page → Page} {text : String}
    (hbelow : ∀ p, (below p).ink = p.ink ++ ink text) {p q : Page}
    (hwrap : wrapAround? c t hasChildren below p = some q) :
    q.ink = p.ink ++ ink (Plain.body t hasChildren text) := by
  cases hasChildren with
  | false => simp [wrapAround?] at hwrap
  | true =>
    cases hcut : cutAtField? (t.value.getD []) with
    | none => simp [wrapAround?, hcut] at hwrap
    | some parts =>
      obtain ⟨before, behind⟩ := parts
      simp only [wrapAround?, hcut, Bool.not_true, Bool.false_eq_true, if_false,
        Option.some.injEq] at hwrap
      rw [← hwrap, ink_writeBehind h, hbelow, Page.ink_pieces h, Plain.body,
        if_pos rfl, around_of_cutAtField? hcut]
      simp

/-- Where nothing is wrapped around the nodes below a tag, they come behind its
value. -/
theorem ink_body_of_wrapAround?_eq_none {t : Tag} {hasChildren : Bool}
    {below : Page → Page} {p : Page}
    (hwrap : wrapAround? c t hasChildren below p = none) {text : String}
    (hleaf : hasChildren = false → text = "") :
    ink (Plain.body t hasChildren text) =
      ink (Piece.plainText (t.value.getD [])) ++ ink text := by
  cases hasChildren with
  | false => simp [Plain.body, hleaf]
  | true =>
    cases hcut : cutAtField? (t.value.getD []) with
    | none =>
      rw [Plain.body, if_pos rfl, around_of_cutAtField?_eq_none hcut,
        ink_append]
    | some parts => simp [wrapAround?, hcut] at hwrap

theorem ink_writeValue (h : AddsOnlyBlanks c) (value : List Piece) (p : Page) :
    (writeValue c value p).ink = p.ink ++ ink (Piece.plainText value) :=
  Page.ink_onOwnLines h _ (Page.ink_pieces h · value) p

theorem ink_writeCaret (h : AddsOnlyBlanks c) (name : String) (p : Page) :
    (writeCaret c name p).ink = p.ink := by
  rw [writeCaret, Page.ink_onOwnLines h _ (Page.ink_pieces h · caret)]
  simp [caret, ink_plainText_cons, Piece.plain]

/-- What a named element holds, whatever lines it takes for it. -/
theorem ink_writeElement (h : AddsOnlyBlanks c) (t : Tag) (name : String)
    {hasChildren : Bool} {below : Page → Page} {text : String}
    (hbelow : ∀ p, (below p).ink = p.ink ++ ink text)
    (hleaf : hasChildren = false → text = "") (p : Page) :
    (writeElement c t name hasChildren below p).ink =
      p.ink ++ ink (Plain.element c.options t name hasChildren text) := by
  have hopening : ((t.attributeList.filter isWritten).foldl (writeAttribute c)
      (p.string c ("<" ++ c.options.tagCase.apply name))).ink =
        p.ink ++ ink ("<" ++ c.options.tagCase.apply name ++
          Plain.attributesText c.options t) := by
    rw [ink_foldl_writeAttribute h, Page.ink_string h, Plain.attributesText]
    simp
  rw [writeElement, Plain.element]
  dsimp only
  split
  · rw [Page.ink_string h, hopening]
    simp
  · have hinside := Page.ink_string h ((t.attributeList.filter isWritten).foldl
      (writeAttribute c) (p.string c ("<" ++ c.options.tagCase.apply name))) ">"
    rw [hopening] at hinside
    generalize Page.string c _ ">" = inside at hinside ⊢
    rw [Page.ink_string h]
    cases hwrap : wrapAround? c t hasChildren below inside with
    | some q => simp [ink_wrapAround? h hbelow hwrap, hinside]
    | none =>
      have hbody := ink_body_of_wrapAround?_eq_none hwrap hleaf
      cases hvalue : t.value with
      | some value => simp [hbelow, ink_writeValue h, hbody, hvalue, hinside]
      | none =>
        cases hasChildren with
        | true => simp [hbelow, hbody, hvalue, hinside]
        | false => simp [ink_writeCaret h, Plain.body, hvalue, hinside]

/-- What a nameless node with a value holds. -/
theorem ink_writeText (h : AddsOnlyBlanks c) {t : Tag}
    (valued : t.value.isSome = true) {hasChildren : Bool} {below : Page → Page}
    {text : String} (hbelow : ∀ p, (below p).ink = p.ink ++ ink text)
    (hleaf : hasChildren = false → text = "") (p : Page) :
    (writeText c t hasChildren below p).ink =
      p.ink ++ ink (Plain.body t hasChildren text) := by
  obtain ⟨value, hvalue⟩ := Option.isSome_iff_exists.1 valued
  rw [writeText]
  cases hwrap : wrapAround? c t hasChildren below p with
  | some q => exact ink_wrapAround? h hbelow hwrap
  | none =>
    rw [ink_body_of_wrapAround?_eq_none hwrap hleaf, hvalue]
    simp [hbelow, Page.ink_pieces h]

theorem ink_finish (h : AddsOnlyBlanks c) (place : Place) (begins : Bool)
    (p : Page) : (finish c place begins p).ink = p.ink := by
  rw [finish]
  split
  · exact Page.ink_newline h p _
  · rfl

theorem forest_eq_empty_of_isEmpty (o : Options) {children : List Node}
    (hleaf : (!children.isEmpty) = false) : Plain.forest o children = "" := by
  cases children with
  | nil => rfl
  | cons n ns => simp at hleaf

mutual

/-- One node: the lines it begins and ends add no ink to its plain
serialization. -/
theorem ink_writeNode (h : AddsOnlyBlanks c) (n : Node)
    (valued : isValued n = true) (place : Place) (p : Page) :
    (writeNode c place n p).ink = p.ink ++ ink (Plain.node c.options n) := by
  match n with
  | ⟨tag, children⟩ =>
    simp only [isValued, Bool.and_eq_true, Bool.or_eq_true] at valued
    have hbelow := ink_writeNodes h children valued.2 (some tag) []
    have hleaf := @forest_eq_empty_of_isEmpty c.options children
    have hbegin : ∀ begins : Bool, (if begins then
        (p.shift (indentStep c.options place.parent)).freshLine c
        else p.shift (indentStep c.options place.parent)).ink = p.ink := by
      intro begins
      cases begins <;> simp [Page.ink_freshLine h]
    simp only [writeNode, Plain.node, Page.ink_shift, ink_finish h]
    cases hname : tag.name with
    | some name => rw [ink_writeElement h tag name hbelow hleaf, hbegin]
    | none =>
      have hvalue : tag.value.isSome = true := by simpa [hname] using valued.1
      rw [ink_writeText h hvalue hbelow hleaf, hbegin]

/-- Nodes one behind the other, wherever they stand. -/
theorem ink_writeNodes (h : AddsOnlyBlanks c) (ns : List Node)
    (valued : areValued ns = true) (parent : Option Tag) (before : List Tag)
    (p : Page) :
    (writeNodes c parent before ns p).ink =
      p.ink ++ ink (Plain.forest c.options ns) := by
  match ns with
  | [] => simp [writeNodes, Plain.forest]
  | n :: ns =>
    simp only [areValued, Bool.and_eq_true] at valued
    rw [writeNodes, ink_writeNodes h ns valued.2, ink_writeNode h n valued.1,
      Plain.forest, ink_append, List.append_assoc]

end

theorem ink_page (h : AddsOnlyBlanks c) {nodes : List Node}
    (valued : areValued nodes = true) :
    ink (page c nodes).out.text = ink (Plain.forest c.options nodes) :=
  ink_writeNodes h nodes valued none [] {}

end Tagged

namespace Plain

variable (l : Layout) (c : Config)

mutual

/-- The plain serializer does not look at the layout. -/
theorem node_layout (n : Node) :
    node (l.apply c).options n = node c.options n := by
  match n with
  | ⟨tag, children⟩ =>
    rw [node, node, forest_layout children]
    rfl

theorem forest_layout (ns : List Node) :
    forest (l.apply c).options ns = forest c.options ns := by
  match ns with
  | [] => rfl
  | n :: ns => rw [forest, forest, node_layout n, forest_layout ns]

end

end Plain

theorem render_of_isOutline_eq_false {c : Config}
    (tagged : c.dialect.isOutline = false) (nodes : List Node) :
    Node.render c nodes = (Tagged.page c nodes).out.text := by
  rw [Node.render, Node.page]
  cases hdialect : c.dialect <;> simp_all [Dialect.isOutline]

/-- In every dialect with tags, markup is the plain serialization up to white
space.  Hence any other blank layout, with formatting on or off, yields the same
but for white space. -/
theorem ink_render_eq_plain {c : Config} (tagged : c.dialect.isOutline = false)
    (blanks : AddsOnlyBlanks c) {nodes : List Node}
    (valued : areValued nodes = true) :
    ink (Node.render c nodes) = ink (Plain.forest c.options nodes) ∧
      ∀ l : Layout, AddsOnlyBlanks (l.apply c) →
        ink (Node.render (l.apply c) nodes) = ink (Node.render c nodes) := by
  have hplain : ink (Node.render c nodes) =
      ink (Plain.forest c.options nodes) := by
    rw [render_of_isOutline_eq_false tagged, Tagged.ink_page blanks valued]
  refine ⟨hplain, fun l hl => ?_⟩
  rw [hplain, render_of_isOutline_eq_false (c := l.apply c) tagged,
    Tagged.ink_page hl valued, Plain.forest_layout]

namespace SerializingWitness

/-- The tree of `ul>li.a{x}+{<!-- ${0} -->}>(p+b)`. -/
def tree : List Node :=
  [⟨{ name := some "ul" },
    [⟨{ name := some "li", value := some [.text "x"],
        attributes := some [{ name := some "class",
                              value := some [.text "a"] }] }, []⟩,
      ⟨{ value := some [.text "<!-- ", .field 0 "", .text " -->"] },
        [⟨{ name := some "p" }, []⟩, ⟨{ name := some "b" }, []⟩]⟩]⟩]

/-- A layout without formatting. -/
def flat : Layout := ⟨false, "", "", "", [], [], false, 0⟩

theorem addsOnlyBlanks_default : AddsOnlyBlanks {} :=
  ⟨rfl, by decide, by decide, by decide⟩

theorem addsOnlyBlanks_flat : AddsOnlyBlanks (flat.apply {}) :=
  ⟨rfl, by decide, by decide, by decide⟩

/-- Formatting breaks this tree into lines, within a comment around two elements
too, and changes nothing else. -/
theorem ink_render_eq_plain_wrapped :
    (({} : Config).dialect.isOutline = false ∧ AddsOnlyBlanks {} ∧
      areValued tree = true ∧
      AddsOnlyBlanks (flat.apply {})) ∧
      Node.render {} tree ≠ Node.render (flat.apply {}) tree ∧
      ink (Node.render {} tree) = ink (Plain.forest {} tree) ∧
      ink (Node.render (flat.apply {}) tree) = ink (Node.render {} tree) :=
  have agree := ink_render_eq_plain (c := {}) rfl addsOnlyBlanks_default
    (show areValued tree = true by decide)
  ⟨⟨rfl, addsOnlyBlanks_default, by decide, addsOnlyBlanks_flat⟩,
    by decide +kernel, agree.1, agree.2 flat addsOnlyBlanks_flat⟩

end SerializingWitness

end Scaffold.Markup

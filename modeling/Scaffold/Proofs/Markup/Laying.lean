import Scaffold.Markup.Outline
import Scaffold.Proofs.Markup.Adding
/-!
What an outline has of each node.  In the order of the outline, a text adds
itself, and an element adds a line break with the indentation of its depth, its
header, and its value behind a space or on lines of its own.  Main statement:
`adds_writeNodes`.
-/
namespace Scaffold.Markup.Outline

/-- A node with its place in an outline, without the nodes below it. -/
structure Item where
  depth : Nat
  isFirst : Bool
  tag : Tag
  isLeaf : Bool

mutual

/-- A node and the nodes below it, in the order of an outline. -/
def items (depth : Nat) (isFirst : Bool) : Node → List Item
  | ⟨tag, children⟩ =>
    ⟨depth, isFirst, tag, children.isEmpty⟩ ::
      itemsOf (depth + 1) false children

def itemsOf (depth : Nat) (isFirst : Bool) : List Node → List Item
  | [] => []
  | n :: ns => items depth isFirst n ++ itemsOf depth false ns

end

/-- What can stand behind a name. -/
def isDelimiter (ch : Char) : Bool :=
  ch == '.' || ch == '#' || ch == '(' || ch == '/' || ch == ' ' ||
    Text.isBreak ch

/-- Nothing, or a delimiter with something behind it. -/
def Delimited (s : String) : Prop :=
  ∀ ch ∈ s.toList.head?, isDelimiter ch = true

/-- Begins with a class or an identifier. -/
def IsMarked (s : String) : Prop :=
  s.toList.head? = some '.' ∨ s.toList.head? = some '#'

/-- A header begins with the name of its element, or, if that is a `div`, with a
shorthand. -/
def Begins (style : OutlineStyle) (name header : String) : Prop :=
  (∃ tail, header = style.beforeName ++ name ++ tail ∧ Delimited tail) ∨
    (name = "div" ∧ IsMarked header)

/-- Nothing stands behind the header of an element on its line. -/
def endsInHeader (h : Hooks) (item : Item) : Bool :=
  (item.tag.selfClosing && item.tag.value.isNone && item.isLeaf) ||
    (shownValue h item.tag (!item.isLeaf)).isNone

/-- What stands between the header of an element and the next node. -/
inductive Content (c : Config) (item : Item) : String → Prop
  | none (bare : endsInHeader c.hooks item = true) : Content c item ""
  | line {value : List Piece} {base : Nat}
      (shown : shownValue c.hooks item.tag (!item.isLeaf) = some value)
      (oneLine : value.all (!spansLines ·) = true) :
      Content c item (" " ++ written c base value)
  | lines {value : List Piece} {t : String}
      (shown : shownValue c.hooks item.tag (!item.isLeaf) = some value)
      (several : value.all (!spansLines ·) = false) :
      Content c item (lineBreak c.options (item.depth + 1) ++ t)

/-- What stands in front of an element's header. -/
def Item.start (o : Options) (item : Item) : String :=
  if item.isFirst then "" else lineBreak o item.depth

/-- A named element, or a text of one line. -/
def isProper (t : Tag) : Bool :=
  match t.name, t.value with
  | some name, _ => !name.isEmpty && !Text.hasBreak name
  | none, some value => t.attributes.isNone && value.all (!spansLines ·)
  | none, none => false

/-- Not a `div` that goes without its name for shorthands that are not
written. -/
def isHeaded (t : Tag) : Bool :=
  let shorthands := t.attributeList.filter isShorthand
  t.name != some "div" || shorthands.isEmpty || shorthands.any (·.value.isSome)

section Texts

variable {s t : String}

theorem head?_append (s t : String) :
    (s ++ t).toList.head? = s.toList.head?.or t.toList.head? := by
  rw [String.toList_append, List.head?_append]

theorem delimited_empty : Delimited "" := fun _ h => by cases h

theorem Delimited.append (h : Delimited s) (h' : Delimited t) :
    Delimited (s ++ t) := by
  intro ch hch
  rw [head?_append] at hch
  cases hhead : s.toList.head? with
  | none => exact h' ch (by rwa [hhead, Option.none_or] at hch)
  | some first => exact h ch (by rwa [hhead, Option.some_or, ← hhead] at hch)

theorem IsMarked.append (h : IsMarked s) (t : String) : IsMarked (s ++ t) := by
  rw [IsMarked, head?_append]
  rcases h with h | h
  · exact .inl (by rw [h, Option.some_or])
  · exact .inr (by rw [h, Option.some_or])

theorem IsMarked.delimited (h : IsMarked s) : Delimited s := by
  intro ch hch
  rcases h with h | h <;> rw [h] at hch <;> cases hch <;> rfl

theorem Begins.ne_empty {style : OutlineStyle} {name header : String}
    (h : Begins style name header) (nonempty : name ≠ "") : header ≠ "" := by
  rintro rfl
  rcases h with ⟨tail, hheader, -⟩ | ⟨-, hmark | hmark⟩
  · have hempty := hheader.symm
    simp [nonempty] at hempty
  · cases hmark
  · cases hmark

theorem Begins.append {style : OutlineStyle} {name header : String}
    (h : Begins style name header) (ht : Delimited t) :
    Begins style name (header ++ t) := by
  rcases h with ⟨tail, rfl, htail⟩ | ⟨hname, hmark⟩
  · exact .inl ⟨tail ++ t, by rw [String.append_assoc], htail.append ht⟩
  · exact .inr ⟨hname, hmark.append t⟩

theorem Delimited.takeWhile_eq_nil (h : Delimited s) :
    s.toList.takeWhile (!isDelimiter ·) = [] := by
  cases hcs : s.toList with
  | nil => rfl
  | cons ch cs =>
    have hch := h ch (by rw [hcs]; rfl)
    rw [List.takeWhile_cons, hch]
    rfl

theorem hasBreak_of_all (h : s.toList.all (!isDelimiter ·) = true) :
    Text.hasBreak s = false := by
  rw [Text.hasBreak_eq_false_iff, List.all_eq_true]
  intro ch hch
  have hdelimiter := List.all_eq_true.1 h ch hch
  rw [isDelimiter, Bool.not_or, Bool.and_eq_true] at hdelimiter
  exact hdelimiter.2

end Texts

/-- A style whose punctuation keeps names apart from what is behind them. -/
structure Delimits (style : OutlineStyle) : Prop where
  beforeName : style.beforeName.toList.all (!isDelimiter ·) = true
  beforeAttributes : Text.hasBreak style.beforeAttributes = false ∧
    ∃ ch, style.beforeAttributes.toList.head? = some ch ∧ isDelimiter ch = true
  selfClosing : Text.hasBreak style.selfClosing = false ∧
    Delimited style.selfClosing

theorem isText_eq_false {t : Tag} {name : String} (hname : t.name = some name) :
    t.isText = false := by
  rw [Tag.isText, hname]
  rfl

section Writing

variable {c : Config} {style : OutlineStyle}

theorem extends_writeAttribute (p : Page) (a : Attribute) :
    p.Extends (writeAttribute c style p a) := by
  have hname :=
    Page.extends_string c p (c.options.attributeCase.apply (a.name.getD ""))
  rw [writeAttribute]
  split
  · split
    · split
      · exact hname
      · exact hname.trans (Page.extends_string c _ _)
    · exact hname
  · exact hname.trans ((Page.extends_string c _ _).trans
      ((Page.extends_pieces c _ _).trans (Page.extends_string c _ _)))

theorem extends_writeAttributeList (attributes : List Attribute) (p : Page) :
    p.Extends (writeAttributeList c style p attributes) := by
  fun_induction writeAttributeList c style p attributes with
  | case1 p => exact .refl p
  | case2 p a => exact extends_writeAttribute p a
  | case3 p a rest _ ih =>
    exact ((extends_writeAttribute p a).trans (Page.extends_string c _ _)).trans
      ih

/-- A list of attributes is delimited by what stands in front of it. -/
theorem adds_writeAttributes (plain : ∀ s, c.hooks.text s = s)
    (delimits : Delimits style) (attributes : List Attribute) (p : Page) :
    ∃ s, p.Adds (writeAttributes c style attributes p) s ∧ Delimited s := by
  obtain ⟨hline, first, hfirst, hdelimiter⟩ := delimits.beforeAttributes
  rw [writeAttributes]
  split
  · exact ⟨"", .refl p, delimited_empty⟩
  · have hbefore := Page.adds_string plain p hline
    have hlist : (p.string c style.beforeAttributes).Extends (writeAttributeList
        c style (p.string c style.beforeAttributes) attributes) :=
      extends_writeAttributeList attributes _
    obtain ⟨s, hs⟩ :=
      hlist.trans (Page.extends_string c _ style.afterAttributes)
    refine ⟨_, hbefore.trans hs, ?_⟩
    intro ch hch
    rw [head?_append, hfirst, Option.some_or] at hch
    cases hch
    exact hdelimiter

/-- Shorthands write nothing if they are all without a value. -/
theorem adds_foldl_writeShorthand (plain : ∀ s, c.hooks.text s = s)
    (shorthands : List Attribute) (p : Page) :
    ∃ s, p.Adds (shorthands.foldl (writeShorthand c) p) s ∧
    ((s = "" ∧ shorthands.any (·.value.isSome) = false) ∨ IsMarked s) := by
  induction shorthands generalizing p with
  | nil => exact ⟨"", .refl p, .inl ⟨rfl, rfl⟩⟩
  | cons a rest ih =>
    obtain ⟨s, hrest, hs⟩ := ih (writeShorthand c p a)
    cases hvalue : a.value with
    | none =>
      have hnothing : writeShorthand c p a = p := by rw [writeShorthand, hvalue]
      rw [hnothing] at hrest
      refine ⟨s, by rwa [List.foldl_cons, hnothing], hs.imp_left fun hempty =>
        ⟨hempty.1, ?_⟩⟩
      rw [List.any_cons, hvalue, hempty.2]
      rfl
    | some value =>
      have hfirst : ∃ t, p.Adds (writeShorthand c p a) t ∧ IsMarked t := by
        rw [writeShorthand, hvalue]
        dsimp only
        split
        · obtain ⟨t, ht⟩ :=
            Page.extends_pieces c (p.string c ".") (value.map dotted)
          exact ⟨"." ++ t, (Page.adds_string plain p rfl).trans ht,
            IsMarked.append (.inl rfl) t⟩
        · obtain ⟨t, ht⟩ := Page.extends_pieces c (p.string c "#") value
          exact ⟨"#" ++ t, (Page.adds_string plain p rfl).trans ht,
            IsMarked.append (.inr rfl) t⟩
      obtain ⟨t, ht, hmarked⟩ := hfirst
      exact ⟨t ++ s, ht.trans hrest, .inr (hmarked.append s)⟩

theorem adds_writeHead (plain : ∀ s, c.hooks.text s = s)
    (delimits : Delimits style) {t : Tag} {name : String}
    (hname : t.name = some name) (oneLine : Text.hasBreak name = false)
    (p : Page) :
    ∃ header, p.Adds (writeHead c style t p) header ∧
      (isHeaded t = true → Begins style name header) := by
  have hbreak : Text.hasBreak (style.beforeName ++ name) = false := by
    rw [Text.hasBreak_append, hasBreak_of_all delimits.beforeName, oneLine]
    rfl
  rw [writeHead, List.partition_eq_filter_filter, hname]
  dsimp only
  have hheaded : isHeaded t = true → name = "div" →
      (t.attributeList.filter isShorthand).isEmpty = false →
      (t.attributeList.filter isShorthand).any (·.value.isSome) = true := by
    intro headed hdiv hnonempty
    simpa only [isHeaded, hname, hdiv, hnonempty, bne_self_eq_false,
      Bool.false_or] using headed
  generalize t.attributeList.filter isShorthand = shorthands at hheaded ⊢
  generalize (t.attributeList.filter (not ∘ isShorthand)).filter
    isWritten = others
  split
  · rename_i homitted
    obtain ⟨s, hs, hmarked⟩ := adds_foldl_writeShorthand plain shorthands p
    obtain ⟨u, hu, -⟩ := adds_writeAttributes plain delimits others
      (shorthands.foldl (writeShorthand c) p)
    refine ⟨s ++ u, hs.trans hu, fun headed => .inr ⟨homitted.1, ?_⟩⟩
    rcases hmarked with ⟨-, hnone⟩ | hmarked
    · rw [hheaded headed homitted.1 (by simpa using homitted.2)] at hnone
      cases hnone
    · exact hmarked.append u
  · obtain ⟨s, hs, hmarked⟩ := adds_foldl_writeShorthand plain shorthands
      (p.string c (style.beforeName ++ name))
    obtain ⟨u, hu, hdelimited⟩ := adds_writeAttributes plain delimits others
      (shorthands.foldl (writeShorthand c)
        (p.string c (style.beforeName ++ name)))
    refine ⟨_, (Page.adds_string plain p hbreak).trans (hs.trans hu),
      fun _ => .inl ⟨s ++ u, rfl, ?_⟩⟩
    rcases hmarked with ⟨rfl, -⟩ | hmarked
    · exact delimited_empty.append hdelimited
    · exact hmarked.delimited.append hdelimited

theorem extends_writeLine (width : Nat) (p : Page) (line : List Piece) :
    (p.freshLine c).Extends (writeLine c style width p line) := by
  have hbefore : ∀ q : Page, q.Extends
      (if style.beforeTextLine.isEmpty then q
        else q.push c style.beforeTextLine) := by
    intro q
    split
    · exact .refl q
    · exact Page.extends_push c q _
  have hafter : ∀ q : Page,
      q.Extends (if style.afterTextLine.isEmpty then q else
        (q.push c (String.ofList
          (List.replicate (width - lineLength line) ' '))).push c
          style.afterTextLine) := by
    intro q
    split
    · exact .refl q
    · exact (Page.extends_push c q _).trans (Page.extends_push c _ _)
  exact ((hbefore _).trans (Page.extends_pieces c _ line)).trans (hafter _)

/-- The value of an element stands behind a space, or on lines of its own. -/
theorem adds_writeValue (plain : ∀ s, c.hooks.text s = s) {item : Item}
    {value : List Piece} {name : String} (hname : item.tag.name = some name)
    (shown : shownValue c.hooks item.tag (!item.isLeaf) = some value) (p : Page)
    (hlevel : p.out.level = item.depth) :
    ∃ content, p.Adds (writeValue c style item.tag value p) content ∧
    Content c item content := by
  rw [writeValue]
  by_cases oneLine : value.all (!spansLines ·) = true
  · obtain ⟨line, hline⟩ := exists_valueLines_eq_singleton oneLine
    rw [hline, isText_eq_false hname]
    exact ⟨_, (Page.adds_push plain p " ").trans
      (Page.adds_pieces plain _ oneLine), .line shown oneLine⟩
  · rw [Bool.not_eq_true] at oneLine
    split
    · rename_i hnil
      exact absurd hnil (valueLines_ne_nil value)
    · rename_i line hline
      rw [all_not_spansLines (by rw [hline]; exact Nat.le_refl 1)] at oneLine
      cases oneLine
    · obtain ⟨first, rest, hlines⟩ :=
        List.exists_cons_of_ne_nil (valueLines_ne_nil value)
      have hfresh : (p.shift 1).Adds ((p.shift 1).freshLine c)
          (lineBreak c.options (item.depth + 1)) := by
        apply Page.adds_freshLine
        change p.out.level + 1 = ((item.depth + 1 : Nat) : Int)
        omega
      have hwrite : ∀ width (q : Page) line,
          q.Extends (writeLine c style width q line) :=
        fun width q line => (Page.extends_newline c q q.out.level).trans
          (extends_writeLine width q line)
      rw [hlines]
      dsimp only
      generalize ((first :: rest).map lineLength).foldl max 0 = width
      obtain ⟨t, ht⟩ := (extends_writeLine width (p.shift 1) first).trans
        (Page.extends_foldl (hwrite width) rest _)
      exact ⟨_, (hfresh.trans ht).unshift, .lines shown oneLine⟩

/-- What a writer makes of items: a header is as it should be if the element is
headed at all. -/
inductive Laid (c : Config) (style : OutlineStyle) : List Item → String → Prop
  | nil : Laid c style [] ""
  | text {item : Item} {items : List Item} {value : List Piece}
    {base : Nat} {rest : String}
      (hname : item.tag.name = none) (hvalue : item.tag.value = some value)
      (behind : Laid c style items rest) :
      Laid c style (item :: items) (written c base value ++ rest)
  | element {item : Item} {items : List Item}
    {name header content rest : String}
      (hname : item.tag.name = some name) (nonempty : name ≠ "")
      (begins : isHeaded item.tag = true → Begins style name header)
      (holds : Content c item content) (behind : Laid c style items rest) :
      Laid c style (item :: items)
        (item.start c.options ++ (header ++ (content ++ rest)))

theorem Laid.append {xs ys : List Item} {s t : String} (h : Laid c style xs s)
    (h' : Laid c style ys t) : Laid c style (xs ++ ys) (s ++ t) := by
  induction h with
  | nil => rwa [String.empty_append]
  | text hname hvalue _ ih =>
    rw [String.append_assoc]
    exact .text hname hvalue ih
  | element hname nonempty begins holds _ ih =>
    rw [String.append_assoc, String.append_assoc, String.append_assoc]
    exact .element hname nonempty begins holds ih

/-- The header of an element, behind what it starts with. -/
theorem adds_start_writeHead (plain : ∀ s, c.hooks.text s = s)
    (delimits : Delimits style) {item : Item} {name : String}
    (hname : item.tag.name = some name) (oneLine : Text.hasBreak name = false)
    (p : Page) (hlevel : p.out.level = item.depth) :
    ∃ header, p.Adds
      (writeHead c style item.tag (if item.isFirst || item.tag.isText then p
        else p.freshLine c)) (item.start c.options ++ header) ∧
      (isHeaded item.tag = true → Begins style name header) := by
  have hstart :
      p.Adds (if item.isFirst || item.tag.isText then p else p.freshLine c)
        (item.start c.options) := by
    rw [isText_eq_false hname, Bool.or_false, Item.start]
    split
    · exact .refl p
    · exact Page.adds_freshLine p hlevel
  obtain ⟨header, hhead, hbegins⟩ :=
    adds_writeHead plain delimits hname oneLine _
  exact ⟨header, hstart.trans hhead, hbegins⟩

/-- An element with what is written below it. -/
theorem adds_element (plain : ∀ s, c.hooks.text s = s)
    (delimits : Delimits style) (item : Item)
    {name : String} (hname : item.tag.name = some name)
    (proper : isProper item.tag = true)
    {items : List Item} {below : Page → Page}
    (hleaf : item.isLeaf = true → items = [])
    (hbelow : ∀ q : Page, q.out.level = item.depth →
      ∃ s, q.Adds (below q) s ∧ Laid c style items s)
    (p : Page) (hlevel : p.out.level = item.depth) :
    ∃ s, p.Adds
        (let q := writeHead c style item.tag
          (if item.isFirst || item.tag.isText then p else p.freshLine c)
        if item.tag.selfClosing && item.tag.value.isNone && item.isLeaf then
          q.string c style.selfClosing
        else below (match shownValue c.hooks item.tag (!item.isLeaf) with
          | some value => writeValue c style item.tag value q
          | none => q)) s ∧
      Laid c style (item :: items) s := by
  obtain ⟨nonempty, oneLine⟩ : name ≠ "" ∧ Text.hasBreak name = false := by
    simpa [isProper, hname] using proper
  obtain ⟨header, hhead, hbegins⟩ :=
    adds_start_writeHead plain delimits hname oneLine p hlevel
  dsimp only
  generalize writeHead c style item.tag _ = q at hhead ⊢
  split
  · rename_i hclosed
    have hends : endsInHeader c.hooks item = true := by
      rw [endsInHeader, hclosed, Bool.true_or]
    obtain ⟨hmark, hdelimited⟩ := delimits.selfClosing
    have hmarked : isHeaded item.tag = true →
        Begins style name (header ++ style.selfClosing) :=
      fun headed => (hbegins headed).append hdelimited
    have hlaid : Laid c style items "" := by
      rw [hleaf (Bool.and_eq_true_iff.1 hclosed).2]
      exact .nil
    refine ⟨_, ?_, .element hname nonempty hmarked (.none hends) hlaid⟩
    simpa [String.append_assoc]
      using hhead.trans (Page.adds_string plain q hmark)
  · cases hshown : shownValue c.hooks item.tag (!item.isLeaf) with
    | none =>
      have hends : endsInHeader c.hooks item = true := by
        rw [endsInHeader, hshown, Option.isNone_none, Bool.or_true]
      obtain ⟨rest, hrest, hlaid⟩ := hbelow q (hhead.level.trans hlevel)
      refine ⟨_, ?_, .element hname nonempty hbegins (.none hends) hlaid⟩
      simpa [String.append_assoc] using hhead.trans hrest
    | some value =>
      obtain ⟨content, hvalue, hcontent⟩ : ∃ content,
          q.Adds (writeValue c style item.tag value q) content ∧
            Content c item content :=
        adds_writeValue plain hname hshown q (hhead.level.trans hlevel)
      obtain ⟨rest, hrest, hlaid⟩ :=
        hbelow _ (hvalue.level.trans (hhead.level.trans hlevel))
      refine ⟨_, ?_, .element hname nonempty hbegins hcontent hlaid⟩
      simpa [String.append_assoc] using (hhead.trans hvalue).trans hrest

/-- A text goes on in its line. -/
theorem adds_text (plain : ∀ s, c.hooks.text s = s) {t : Tag}
    {value : List Piece} (hname : t.name = none) (hvalue : t.value = some value)
    (proper : isProper t = true) (p : Page) :
    p.Adds (writeValue c style t value (writeHead c style t p))
      (written c p.fieldBase value) := by
  obtain ⟨hattributes, oneLine⟩ : t.attributes.isNone = true ∧
      value.all (!spansLines ·) = true := by
    simpa [isProper, hname, hvalue] using proper
  have hhead : writeHead c style t p = p := by
    rw [writeHead, hname, Tag.attributeList,
      Option.isNone_iff_eq_none.1 hattributes]
    rfl
  have hisText : t.isText = true := by
    rw [Tag.isText, hname, hattributes]
    rfl
  obtain ⟨line, hline⟩ := exists_valueLines_eq_singleton oneLine
  rw [hhead, writeValue, hline, hisText]
  exact Page.adds_pieces plain p oneLine

mutual

/-- One node with the nodes below it, at the level that the nodes around it are
written at. -/
theorem adds_writeNode (plain : ∀ s, c.hooks.text s = s)
    (delimits : Delimits style) (n : Node) (isTop isFirst : Bool) (depth : Nat)
    (p : Page) (hlevel : p.out.level + (if isTop then 0 else 1) = depth)
    (proper : ∀ item ∈ items depth (isTop && isFirst) n,
      isProper item.tag = true) :
    ∃ s, p.Adds (writeNode c style isTop isFirst n p) s ∧
      Laid c style (items depth (isTop && isFirst) n) s := by
  match n with
  | ⟨tag, children⟩ =>
    rw [items] at proper ⊢
    have htag : isProper tag = true := proper _ (List.mem_cons_self ..)
    have hbelow : ∀ q : Page, q.out.level = depth →
        ∃ s, q.Adds (writeNodes c style false true children q) s ∧
          Laid c style (itemsOf (depth + 1) false children) s := fun q hq =>
      adds_writeNodes plain delimits children false true (depth + 1) q
        (by simp [hq])
        fun item hitem => proper item (List.mem_cons_of_mem _ hitem)
    rw [writeNode]
    dsimp only
    generalize hstep : (if isTop then 0 else 1 : Int) = step at hlevel ⊢
    have hat : (p.shift step).out.level = depth := hlevel
    suffices h : ∃ s, (p.shift step).Adds _ s ∧ Laid c style _ s by
      obtain ⟨s, hs, hlaid⟩ := h
      exact ⟨s, hs.unshift, hlaid⟩
    cases hname : tag.name with
    | some name =>
      have hleaf : children.isEmpty = true →
          itemsOf (depth + 1) false children = [] := by
        intro hempty
        rw [List.isEmpty_iff.1 hempty, itemsOf]
      exact adds_element plain delimits ⟨depth, isTop && isFirst, tag,
        children.isEmpty⟩ hname htag hleaf hbelow (p.shift step) hat
    | none =>
      obtain ⟨value, hvalue⟩ : ∃ value, tag.value = some value := by
        cases hvalue : tag.value with
        | none => simp [isProper, hname, hvalue] at htag
        | some value => exact ⟨value, rfl⟩
      have hisText : tag.isText = true := by
        rw [isProper, hname, hvalue] at htag
        rw [Tag.isText, hname, (Bool.and_eq_true_iff.1 htag).1]
        rfl
      have htext : (p.shift step).Adds
          (writeValue c style tag value
            (writeHead c style tag (p.shift step)))
          (written c (p.shift step).fieldBase value) :=
        adds_text plain hname hvalue htag (p.shift step)
      obtain ⟨rest, hrest, hlaid⟩ := hbelow _ (htext.level.trans hat)
      refine ⟨written c (p.shift step).fieldBase value ++ rest, ?_,
        .text hname hvalue hlaid⟩
      rw [hisText, Bool.or_true, shownValue, hvalue, Option.isNone_some,
        Bool.and_false, Bool.false_and]
      exact htext.trans hrest

theorem adds_writeNodes (plain : ∀ s, c.hooks.text s = s)
    (delimits : Delimits style) (ns : List Node) (isTop isFirst : Bool)
    (depth : Nat) (p : Page)
    (hlevel : p.out.level + (if isTop then 0 else 1) = depth)
    (proper : ∀ item ∈ itemsOf depth (isTop && isFirst) ns,
      isProper item.tag = true) :
    ∃ s, p.Adds (writeNodes c style isTop isFirst ns p) s ∧
      Laid c style (itemsOf depth (isTop && isFirst) ns) s := by
  match ns with
  | [] => exact ⟨"", .refl p, .nil⟩
  | n :: ns =>
    rw [itemsOf] at proper ⊢
    obtain ⟨s, hfirst, hs⟩ :=
      adds_writeNode plain delimits n isTop isFirst depth p hlevel
      fun item hitem => proper item (List.mem_append_left _ hitem)
    obtain ⟨t, hrest, ht⟩ := adds_writeNodes plain delimits ns isTop false depth
      (writeNode c style isTop isFirst n p) (by rw [hfirst.level, hlevel])
      fun item hitem =>
        proper item (List.mem_append_right _ (by rwa [Bool.and_false] at hitem))
    rw [Bool.and_false] at ht
    exact ⟨s ++ t, hfirst.trans hrest, hs.append ht⟩

end

end Writing

end Scaffold.Markup.Outline

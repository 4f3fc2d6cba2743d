import Mathlib
import Scaffold.Expansion
import Scaffold.Proofs.Markup.Laying
/-!
What can be read off an outline.  Every element but the first node begins a line
that is indented as far as the element is deep, with a header from which its
name can be read back.  Two things get in the way of that: a `div` all of whose
shorthands lack a value has no header, and a text goes on right behind a header
that nothing else follows.  Main statement: `render_faithful`.
-/
namespace Scaffold

/-- The punctuation of the configured dialect, if it is one of the outlines. -/
def Config.outlineStyle? (c : Config) : Option Markup.OutlineStyle :=
  match c.dialect with
  | .pug => some (.pug c.options)
  | .haml => some .haml
  | .slim => some .slim
  | .html | .xhtml | .xml | .xsl | .jsx => none

namespace Markup.Outline

/-- The name of the element that a line begins with. -/
def readName (style : OutlineStyle) (line : String) : String :=
  let word := line.toList.takeWhile (!isDelimiter ·)
  if word.isEmpty then "div"
  else String.ofList (word.drop style.beforeName.length)

/-- Nothing, or something behind a space or a line break. -/
def Apart (o : Options) (s : String) : Prop :=
  s = "" ∨ s.toList.head? = some ' ' ∨ ∃ t, s = o.newline ++ t

/-- A text that shows each of the items, one behind the other, as what it is and
where it belongs. -/
inductive Faithful (c : Config) (style : OutlineStyle) :
    List Item → String → Prop
  | nil : Faithful c style [] ""
  | text {item : Item} {items : List Item} {value : List Piece}
    {base : Nat} {rest : String}
      (hname : item.tag.name = none) (hvalue : item.tag.value = some value)
      (behind : Faithful c style items rest) :
      Faithful c style (item :: items) (written c base value ++ rest)
  | element {item : Item} {items : List Item}
    {name header content rest : String}
      (hname : item.tag.name = some name) (nonempty : header ≠ "")
      (begins : Begins style name header) (holds : Content c item content)
      (apart : Apart c.options (content ++ rest))
      (reads : name.toList.all (!isDelimiter ·) = true →
        readName style (header ++ (content ++ rest)) = name)
      (behind : Faithful c style items rest) :
      Faithful c style (item :: items)
        (item.start c.options ++ (header ++ (content ++ rest)))

/-- No text goes on right behind the header of an element, `bare` being whether
such a header ends what stands in front. -/
def Spaced (c : Config) : Prop → List Item → Prop
  | _, [] => True
  | bare, item :: items =>
    match item.tag.name with
    | some _ => Spaced c (endsInHeader c.hooks item = true) items
    | none =>
      let value := item.tag.value.getD []
      (bare → ∀ base, written c base value = "" ∨
        (written c base value).toList.head? = some ' ') ∧
        Spaced c (bare ∧ ∃ base, written c base value = "") items

/-- A name stands in front of the first delimiter. -/
theorem readName_of_begins {style : OutlineStyle} {name header : String}
    (hstyle : style.beforeName.toList.all (!isDelimiter ·) = true)
    (hname : name.toList.all (!isDelimiter ·) = true) (nonempty : name ≠ "")
    (h : Begins style name header) : readName style header = name := by
  rcases h with ⟨tail, rfl, htail⟩ | ⟨hdiv, hmark⟩
  · have hall : ∀ ch ∈ style.beforeName.toList ++ name.toList,
        (!isDelimiter ch) = true := by
      rw [← List.all_eq_true, List.all_append, hstyle, hname]
      rfl
    have hword :
        (style.beforeName ++ name ++ tail).toList.takeWhile (!isDelimiter ·) =
        style.beforeName.toList ++ name.toList := by
      rw [String.toList_append, String.toList_append,
        List.takeWhile_append_of_pos hall, htail.takeWhile_eq_nil,
        List.append_nil]
    have hne : ¬(style.beforeName.toList ++ name.toList).isEmpty = true := by
      simp [nonempty]
    rw [readName, hword, if_neg hne, ← String.length_toList, List.drop_left,
      String.ofList_toList]
  · rw [readName, hmark.delimited.takeWhile_eq_nil, hdiv]
    rfl

theorem delimits_of_outlineStyle? {c : Config} {style : OutlineStyle}
    (hstyle : c.outlineStyle? = some style) : Delimits style := by
  have hattributes : ∀ s, s = "(" ∨ s = " " → Text.hasBreak s = false ∧
      ∃ ch, s.toList.head? = some ch ∧ isDelimiter ch = true := by
    rintro s (rfl | rfl)
    · exact ⟨rfl, '(', rfl, rfl⟩
    · exact ⟨rfl, ' ', rfl, rfl⟩
  have hclosing : ∀ s, s = "/" ∨ s = "" → Text.hasBreak s = false ∧
      Delimited s := by
    rintro s (rfl | rfl)
    · exact ⟨rfl, fun ch hch => by cases hch; rfl⟩
    · exact ⟨rfl, delimited_empty⟩
  rw [Config.outlineStyle?] at hstyle
  split at hstyle
  · obtain rfl := Option.some.inj hstyle
    refine ⟨rfl, hattributes _ (.inl rfl), hclosing _ ?_⟩
    rw [OutlineStyle.pug]
    split
    · exact .inl rfl
    · exact .inr rfl
  · obtain rfl := Option.some.inj hstyle
    exact ⟨rfl, hattributes _ (.inl rfl), hclosing _ (.inl rfl)⟩
  · obtain rfl := Option.some.inj hstyle
    exact ⟨rfl, hattributes _ (.inr rfl), hclosing _ (.inl rfl)⟩
  all_goals cases hstyle

theorem Apart.delimited {o : Options} {s : String} (h : Apart o s)
    (breaks : ∃ ch, o.newline.toList.head? = some ch ∧ Text.isBreak ch = true) :
    Delimited s := by
  intro ch hch
  rcases h with rfl | hspace | ⟨t, rfl⟩
  · cases hch
  · rw [hspace] at hch
    cases hch
    rfl
  · obtain ⟨first, hfirst, hbreak⟩ := breaks
    rw [head?_append, hfirst, Option.some_or] at hch
    cases hch
    rw [isDelimiter, hbreak, Bool.or_true]

theorem apart_lineBreak (o : Options) (level : Nat) (s : String) :
    Apart o (lineBreak o level ++ s) :=
  .inr (.inr ⟨_, by rw [lineBreak, String.append_assoc, String.append_assoc]⟩)

theorem Apart.append_of_empty {o : Options} {s t : String}
    (hs : s = "" ∨ s.toList.head? = some ' ') (ht : s = "" → Apart o t) :
    Apart o (s ++ t) := by
  rcases hs with rfl | hspace
  · rw [String.empty_append]
    exact ht rfl
  · exact .inr (.inl (by rw [head?_append, hspace, Option.some_or]))

/-- The content of an element keeps its header apart from what follows, unless
it is nothing. -/
theorem Content.apart {c : Config} {item : Item} {content rest : String}
    (h : Content c item content)
    (hrest : endsInHeader c.hooks item = true → Apart c.options rest) :
    Apart c.options (content ++ rest) := by
  cases h with
  | none bare =>
    rw [String.empty_append]
    exact hrest bare
  | line shown oneLine =>
    rw [String.append_assoc]
    exact .inr (.inl (by rw [head?_append]; rfl))
  | lines shown several =>
    rw [String.append_assoc]
    exact apart_lineBreak _ _ _

/-- What is laid out with a header for every element and with space in front of
texts is faithful. Where a bare header stands in front, the rest is apart from
it. -/
theorem Laid.faithful {c : Config} {style : OutlineStyle}
    (delimits : Delimits style)
    (breaks : ∃ ch, c.options.newline.toList.head? = some ch ∧
      Text.isBreak ch = true) {items : List Item} {s : String}
    (h : Laid c style items s)
    (headed : ∀ item ∈ items, isHeaded item.tag = true)
    (later : ∀ item ∈ items.tail, item.isFirst = false) {bare : Prop}
    (spaced : Spaced c bare items) :
    Faithful c style items s ∧
      (bare → (∀ item ∈ items.head?, item.isFirst = false) →
        Apart c.options s) := by
  induction h generalizing bare with
  | nil => exact ⟨.nil, fun _ _ => .inl rfl⟩
  | @text item items value base rest hname hvalue behind ih =>
    rw [Spaced, hname, hvalue] at spaced
    obtain ⟨hspace, hspaced⟩ := spaced
    have hheaded := fun x hx => headed x (List.mem_cons_of_mem _ hx)
    have hlater := fun x hx => later x (List.mem_of_mem_tail hx)
    obtain ⟨hfaithful, hapart⟩ := ih hheaded hlater hspaced
    refine ⟨.text hname hvalue hfaithful, fun hbare _ => ?_⟩
    apply Apart.append_of_empty (hspace hbare base)
    intro hempty
    exact hapart ⟨hbare, base, hempty⟩ fun x hx =>
      later x (List.mem_of_mem_head? hx)
  | @element item items name header content rest hname nonempty begins holds
    behind ih =>
    rw [Spaced, hname] at spaced
    have hheaded := fun x hx => headed x (List.mem_cons_of_mem _ hx)
    have hlater := fun x hx => later x (List.mem_of_mem_tail hx)
    obtain ⟨hfaithful, hapart⟩ := ih hheaded hlater spaced
    have hcontent : Apart c.options (content ++ rest) :=
      holds.apart fun hends =>
      hapart hends fun x hx => later x (List.mem_of_mem_head? hx)
    have hbegins := begins (headed item (List.mem_cons_self ..))
    refine ⟨.element hname (hbegins.ne_empty nonempty) hbegins holds hcontent
      (fun hword => ?_) hfaithful, fun _ hfirst => ?_⟩
    · exact readName_of_begins delimits.beforeName hword nonempty
        (hbegins.append (hcontent.delimited breaks))
    · rw [Item.start, hfirst item rfl]
      exact apart_lineBreak _ _ _

mutual

theorem isFirst_of_mem_items (depth : Nat) (n : Node) :
    ∀ item ∈ items depth false n, item.isFirst = false := by
  match n with
  | ⟨tag, children⟩ =>
    rw [items]
    rintro item (_ | ⟨_, hitem⟩)
    · rfl
    · exact isFirst_of_mem_itemsOf (depth + 1) children item hitem

theorem isFirst_of_mem_itemsOf (depth : Nat) (ns : List Node) :
    ∀ item ∈ itemsOf depth false ns, item.isFirst = false := by
  match ns with
  | [] => exact fun _ hitem => by cases hitem
  | n :: ns =>
    rw [itemsOf]
    intro item hitem
    rcases List.mem_append.1 hitem with hitem | hitem
    · exact isFirst_of_mem_items depth n item hitem
    · exact isFirst_of_mem_itemsOf depth ns item hitem

end

theorem isFirst_of_mem_tail (nodes : List Node) :
    ∀ item ∈ (itemsOf 0 true nodes).tail, item.isFirst = false := by
  intro item hitem
  match nodes with
  | [] => cases hitem
  | ⟨tag, children⟩ :: ns =>
    rw [itemsOf, items, List.cons_append, List.tail_cons] at hitem
    rcases List.mem_append.1 hitem with hitem | hitem
    · exact isFirst_of_mem_itemsOf 1 children item hitem
    · exact isFirst_of_mem_itemsOf 0 ns item hitem

theorem render_of_outlineStyle? {c : Config} {style : OutlineStyle}
    (hstyle : c.outlineStyle? = some style) (nodes : List Node) :
    Node.render c nodes = (page c style nodes).out.text := by
  rw [Config.outlineStyle?] at hstyle
  rw [Node.render, Node.page]
  cases hdialect : c.dialect <;> rw [hdialect] at hstyle
  case pug | haml | slim =>
    obtain rfl := Option.some.inj hstyle
    rfl
  all_goals cases hstyle

/-- In an outline of named elements and texts of one line, every element but the
first node begins a line of its own at its depth, with a header from which its
name can be read, unless it is a `div` that goes without its name and shows no
shorthand, or a text goes on right behind a header. -/
theorem render_faithful {c : Config} {style : OutlineStyle}
    (hstyle : c.outlineStyle? = some style) (plain : ∀ s, c.hooks.text s = s)
    (breaks : ∃ ch, c.options.newline.toList.head? = some ch ∧
      Text.isBreak ch = true) {nodes : List Node}
    (proper : ∀ item ∈ itemsOf 0 true nodes, isProper item.tag = true)
    (headed : ∀ item ∈ itemsOf 0 true nodes, isHeaded item.tag = true)
    (spaced : Spaced c False (itemsOf 0 true nodes)) :
    Faithful c style (itemsOf 0 true nodes) (Node.render c nodes) := by
  have delimits := delimits_of_outlineStyle? hstyle
  obtain ⟨s, hs, hlaid⟩ :=
    adds_writeNodes plain delimits nodes true true 0 {} rfl proper
  have htext : Node.render c nodes = s := by
    rw [render_of_outlineStyle? hstyle, page, hs.text]
    exact String.empty_append
  rw [htext]
  exact (hlaid.faithful delimits breaks headed
    (isFirst_of_mem_tail nodes) spaced).1

/-- A faithful outline begins with the name of its first element. -/
theorem Faithful.readName_eq {c : Config} {style : OutlineStyle} {item : Item}
    {items : List Item} {s name : String}
    (h : Faithful c style (item :: items) s) (first : item.isFirst = true)
    (hname : item.tag.name = some name)
    (hword : name.toList.all (!isDelimiter ·) = true) :
    s ≠ "" ∧ readName style s = name := by
  cases h with
  | text hnone _ _ =>
    rw [hname] at hnone
    cases hnone
  | element hname' nonempty _ _ _ reads _ =>
    rw [hname] at hname'
    obtain rfl := Option.some.inj hname'
    rw [Item.start, if_pos first, String.empty_append]
    refine ⟨fun hempty => nonempty ?_, reads hword⟩
    simp at hempty
    exact hempty.1

namespace OutliningWitness

def config : Config := { dialect := .pug, snippets := {} }

/-- The tree of `ul>li.a[title=x]{one}+div.b>p>{ two}`. -/
def tree : List Node :=
  [⟨{ name := some "ul" },
    [⟨{ name := some "li", value := some [.text "one"],
        attributes := some [{ name := some "class", value := some [.text "a"] },
          { name := some "title", value := some [.text "x"] }] }, []⟩,
      ⟨{ name := some "div",
         attributes := some [{ name := some "class",
                               value := some [.text "b"] }] },
        [⟨{ name := some "p" }, [⟨{ value := some [.text " two"] }, []⟩]⟩]⟩]⟩]

/-- The tree of `p>{hello}`. -/
def glued : List Node :=
  [⟨{ name := some "p" }, [⟨{ value := some [.text "hello"] }, []⟩]⟩]

/-- The tree of `div[class]`. -/
def nameless : List Node :=
  [⟨{ name := some "div", attributes := some [{ name := some "class" }] }, []⟩]

theorem spaced_tree : Spaced config False (itemsOf 0 true tree) := by
  have hspace : ∀ base, written config base [.text " two"] = "" ∨
      (written config base [.text " two"]).toList.head? = some ' ' := by
    intro base
    have hwritten : written config base [.text " two"] = " two" := by
      simp [written]
    rw [hwritten]
    exact .inr rfl
  exact And.intro (fun _ => hspace) trivial

theorem render_faithful_tree :
    config.outlineStyle? = some (.pug config.options) ∧
      (∀ item ∈ itemsOf 0 true tree, isProper item.tag = true) ∧
      (∀ item ∈ itemsOf 0 true tree, isHeaded item.tag = true) ∧
      Spaced config False (itemsOf 0 true tree) ∧
      Node.render config tree = "ul\n\tli.a(title=\"x\") one\n\t.b\n\t\tp two" ∧
      Faithful config (.pug config.options) (itemsOf 0 true tree)
        (Node.render config tree) := by
  have proper : ∀ item ∈ itemsOf 0 true tree, isProper item.tag = true := by
    decide
  have headed : ∀ item ∈ itemsOf 0 true tree, isHeaded item.tag = true := by
    decide
  have hmarkup : Node.render config tree =
      "ul\n\tli.a(title=\"x\") one\n\t.b\n\t\tp two" := by
    decide +kernel
  have hstyle : config.outlineStyle? = some (.pug config.options) := rfl
  exact ⟨hstyle, proper, headed, spaced_tree, hmarkup, render_faithful hstyle
    (fun _ => rfl) ⟨'\n', rfl, rfl⟩ proper headed spaced_tree⟩

/-- A text below an element becomes part of the element's name, and a `div`
whose only shorthand has no value disappears. -/
theorem expand_unfaithful :
    ((Expansion.tree config "p>{hello}").map (·.result) = .ok glued ∧
      (expand config "p>{hello}").map (·.result) = .ok "phello" ∧
      ¬ Faithful config (.pug config.options) (itemsOf 0 true glued) "phello") ∧
    ((Expansion.tree config "div[class]").map (·.result) = .ok nameless ∧
      (expand config "div[class]").map (·.result) = .ok "" ∧
      ¬ Faithful config (.pug config.options)
        (itemsOf 0 true nameless) "") := by
  refine ⟨⟨by rw [config]; cbv, by rw [config]; cbv, fun h => ?_⟩,
    ⟨by rw [config]; cbv, by rw [config]; cbv, fun h => ?_⟩⟩
  · have hread := (h.readName_eq rfl rfl (by decide)).2
    have hglued : readName (.pug config.options) "phello" = "phello" := by
      decide
    rw [hglued] at hread
    revert hread
    decide
  · exact (h.readName_eq rfl rfl (by decide)).1 rfl

end OutliningWitness

end Markup.Outline

end Scaffold

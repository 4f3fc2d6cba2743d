import Scaffold.Markup.Tagged
import Scaffold.Proofs.Component.Scraping
import Scaffold.Proofs.Markup.Relaying
import Scaffold.Proofs.Node.Preorder
/-!
What tagged markup shows of its attributes.  Each step of the writer adds text
whose equals signs are accounted for, so markup shows, in document order, the
attributes that are written in double quotes, and nothing else looks like one.
This takes texts, names and a layout without equals signs of their own.  Main
statement: `exists_shows_render`.
-/
namespace Scaffold.Markup

open Component

/-- What is to be seen of an attribute in double quotes: its name and its value,
with the line breaks of the layout. -/
def ShownAs (o : Options) (entry : String × String)
    (shown : List Char × List Char) : Prop :=
  shown.1 = entry.1.toList ∧ WrittenAs o entry.2 (String.ofList shown.2)

/-- A configuration in which texts and fields are written as they are, and line
breaks and indentation hold nothing that an attribute is told by. -/
structure LegibleLayout (c : Config) : Prop where
  hooks : c.hooks = {}
  layout : ∀ s ∈ [c.options.newline, c.options.baseIndent, c.options.indent],
    '=' ∉ s.toList ∧ '"' ∉ s.toList

namespace LegibleLayout

variable {c : Config}

theorem not_mem_lineBreak (h : LegibleLayout c) (level : Nat) :
    '=' ∉ (lineBreak c.options level).toList ∧
    '"' ∉ (lineBreak c.options level).toList := by
  have hnewline := h.layout c.options.newline (by simp)
  have hbase := h.layout c.options.baseIndent (by simp)
  have hindent := h.layout c.options.indent (by simp)
  simp [lineBreak, hnewline, hbase, hindent]

theorem plain (h : LegibleLayout c) (s : String) : c.hooks.text s = s := by
  rw [h.hooks]

end LegibleLayout

namespace Page

/-- What is written from one page to another shows these attributes in double
quotes. -/
def Shows (o : Options) (p q : Page) (entries : List (String × String)) :
    Prop :=
  ∃ (text : String) (shown : List (List Char × List Char)),
    q.out.text = p.out.text ++ text ∧
    Selectors.Shows text.toList shown ∧ List.Forall₂ (ShownAs o) entries shown

variable {c : Config} {o : Options} {p q r : Page}

namespace Shows

variable {entries others : List (String × String)}

theorem trans (h : p.Shows o q entries) (h' : q.Shows o r others) :
    p.Shows o r (entries ++ others) := by
  obtain ⟨text, shown, htext, hshows, hentries⟩ := h
  obtain ⟨text', shown', htext', hshows', hentries'⟩ := h'
  refine ⟨text ++ text', shown ++ shown', ?_, ?_,
    List.rel_append hentries hentries'⟩
  · rw [htext', htext, String.append_assoc]
  · rw [String.toList_append]
    exact hshows.append hshows'

/-- A text without equals signs shows nothing. -/
theorem of_noEquals {text : String} (h : p.Adds q text)
    (noEquals : '=' ∉ text.toList) : p.Shows o q [] :=
  ⟨text, [], h.text, .quiet noEquals, .nil⟩

theorem refl (o : Options) (p : Page) : p.Shows o p [] :=
  of_noEquals (.refl p) (by simp)

/-- Steps that show nothing may come before and behind those that show
something. -/
theorem trans_nil (h : p.Shows o q entries) (h' : q.Shows o r []) :
    p.Shows o r entries := by
  simpa using h.trans h'

theorem nil_trans (h : p.Shows o q []) (h' : q.Shows o r entries) :
    p.Shows o r entries :=
  h.trans h'

end Shows

theorem shows_shift (o : Options) (p : Page) (n : Int) :
    p.Shows o (p.shift n) [] :=
  ⟨"", [], by simp [shift, Output.shift], .quiet (by simp), .nil⟩

theorem shows_newline (h : LegibleLayout c) (p : Page) (n : Int) :
    p.Shows c.options (p.newline c n) [] :=
  .of_noEquals (adds_newline c p n) (h.not_mem_lineBreak n.toNat).1

theorem shows_string (h : LegibleLayout c) (p : Page) {s : String}
    (noEquals : '=' ∉ s.toList) : p.Shows c.options (p.string c s) [] := by
  obtain ⟨text, hadds, hrelaid⟩ := exists_adds_string h.plain p s
  exact .of_noEquals hadds (hrelaid.not_mem noEquals fun level =>
    (h.not_mem_lineBreak level).1)

theorem shows_pieces (h : LegibleLayout c) (p : Page) {ps : List Piece}
    (noEquals : '=' ∉ (Piece.plainText ps).toList) :
    p.Shows c.options (p.pieces c ps) [] := by
  obtain ⟨text, hadds, hrelaid⟩ := exists_adds_pieces h.hooks p ps
  exact .of_noEquals hadds (hrelaid.not_mem noEquals fun level =>
    (h.not_mem_lineBreak level).1)

/-- Lines of its own do not change what is shown on them. -/
theorem shows_onOwnLines (h : LegibleLayout c) (wanted : Bool)
    {write : Page → Page} {entries : List (String × String)}
    (hwrite : ∀ p : Page, p.Shows c.options (write p) entries) (p : Page) :
    p.Shows c.options (p.onOwnLines c wanted write) entries := by
  rw [onOwnLines]
  split
  · have hin := (shows_shift c.options p 1).trans_nil
      (shows_newline h (p.shift 1) (p.shift 1).out.level)
    have hwritten := hin.nil_trans (hwrite ((p.shift 1).freshLine c))
    exact (hwritten.trans_nil (shows_shift _ _ _)).trans_nil
      (shows_newline h _ _)
  · exact hwrite p

end Page

namespace Tagged

open Page

variable {c : Config}

/-- An attribute that is written in double quotes, by its name and its value
there. -/
def quotedForm? (o : Options) (a : Attribute) : Option (String × String) :=
  match a.name with
  | none => none
  | some name =>
    let f := form o a name
    if f.quotes = ("\"", "\"") then
      match f.value with
      | some value => some (f.name, Piece.plainText value)
      | none => if o.selfClosing = .html then none else some (f.name, "")
    else none

/-- An attribute that is told by its equals sign and its quotes wherever it is
written: there are no others in it, and no line break in its name. -/
structure IsLegible (o : Options) (a : Attribute) : Prop where
  name : ∀ name ∈ a.name, '=' ∉ (form o a name).name.toList ∧
    Text.hasBreak (form o a name).name = false
  value : ∀ name ∈ a.name,
    '=' ∉ (Piece.plainText ((form o a name).value.getD [])).toList ∧
    '"' ∉ (Piece.plainText ((form o a name).value.getD [])).toList

/-- What can stand on both sides of a value. -/
def markPairs : List (String × String) :=
  [("\"", "\""), ("'", "'"), ("\x7b", "\x7d")]

theorem quotes_mem_markPairs (o : Options) (a : Attribute) :
    quotes o a ∈ markPairs := by
  rw [quotes]
  split
  · decide
  · cases o.attributeQuotes <;> decide

theorem quotes_form_mem_markPairs (o : Options) (a : Attribute)
    (name : String) : (form o a name).quotes ∈ markPairs := by
  have hquotes := quotes_mem_markPairs o a
  have hbraces : ("\x7b", "\x7d") ∈ markPairs := by decide
  rw [form, baseForm]
  split
  · exact hquotes
  · dsimp only
    split
    · exact hbraces
    · dsimp only
      split
      · exact hbraces
      · exact hquotes

theorem hasBreak_marks {marks : String × String} (h : marks ∈ markPairs) :
    Text.hasBreak ("=" ++ marks.1) = false ∧ Text.hasBreak marks.2 = false := by
  simp only [markPairs, List.mem_cons, List.not_mem_nil, or_false] at h
  rcases h with rfl | rfl | rfl <;> decide

/-- An attribute with its equals sign shows itself just if it is in double
quotes. -/
theorem shows_of_adds {o : Options} {p q : Page} {name value text : String}
    {marks : String × String} (hmarks : marks ∈ markPairs)
    (hadds : p.Adds q (" " ++ name ++ ("=" ++ marks.1) ++ text ++ marks.2))
    (hname : '=' ∉ name.toList) (htext : '=' ∉ text.toList ∧ '"' ∉ text.toList)
    (hwritten : WrittenAs o value text) :
    p.Shows o q (if marks = ("\"", "\"") then [(name, value)] else []) := by
  have hother {l r : String} {c : Char} (hl : l.toList = [c]) (hc : c ≠ '"' ∧
      '=' ≠ c) (hr : '=' ∉ r.toList)
      (htext' : q.out.text = p.out.text ++
      (" " ++ name ++ ("=" ++ l) ++ text ++ r)) :
      p.Shows o q [] := by
    have hlist : (" " ++ name ++ ("=" ++ l) ++ text ++ r).toList =
        (' ' :: name.toList) ++ '=' :: c :: (text.toList ++ r.toList) := by
      simp [hl]
    refine ⟨_, [], htext', ?_, .nil⟩
    rw [hlist]
    exact .other (by simp [hname]) hc.1 (.quiet (by simp [hc.2, htext.1, hr]))
  simp only [markPairs, List.mem_cons, List.not_mem_nil, or_false] at hmarks
  rcases hmarks with rfl | rfl | rfl
  · have hshown : ShownAs o (name, value) (name.toList, text.toList) :=
      ⟨rfl, by rwa [String.ofList_toList]⟩
    refine ⟨_, [(name.toList, text.toList)], hadds.text, ?_, .cons hshown .nil⟩
    have hlist : (" " ++ name ++ ("=" ++ "\"") ++ text ++ "\"").toList =
        [] ++
          ' ' :: (name.toList ++ '=' :: '"' :: (text.toList ++ '"' :: [])) := by
      simp
    rw [hlist]
    exact .quoted (by simp) hname htext.1 htext.2 (.quiet (by simp))
  · exact hother (c := '\'') (by simp) (by decide) (by simp) hadds.text
  · exact hother (c := '\x7b') (by simp) (by decide) (by simp) hadds.text

section

variable {f : Form}

theorem adds_name (h : LegibleLayout c) (hline : Text.hasBreak f.name = false)
    (p : Page) : p.Adds (p.string c (" " ++ f.name)) (" " ++ f.name) :=
  adds_string h.plain p (by rw [Text.hasBreak_append, hline]; rfl)

/-- A form with a value is written as its name and, between its marks, the
value. -/
theorem exists_adds_valued (h : LegibleLayout c)
    (hline : Text.hasBreak f.name = false) (hmarks : f.quotes ∈ markPairs)
    (value : List Piece) (p : Page) :
    ∃ text, p.Adds
        ((((p.string c (" " ++ f.name)).string c ("=" ++ f.quotes.1)).pieces c
          value).string c
          f.quotes.2)
            (" " ++ f.name ++ ("=" ++ f.quotes.1) ++ text ++ f.quotes.2) ∧
      WrittenAs c.options (Piece.plainText value) text := by
  obtain ⟨hopenLine, hcloseLine⟩ := hasBreak_marks hmarks
  have hopen := adds_string h.plain (p.string c (" " ++ f.name)) hopenLine
  obtain ⟨text, hpieces, hwritten⟩ := exists_adds_pieces h.hooks
    ((p.string c (" " ++ f.name)).string c ("=" ++ f.quotes.1)) value
  have hclose := adds_string h.plain
    (((p.string c (" " ++ f.name)).string c ("=" ++ f.quotes.1)).pieces c value)
      hcloseLine
  exact ⟨text,
    (((adds_name h hline p).trans hopen).trans hpieces).trans hclose, hwritten⟩

/-- A form without a value is written as its name and its marks. -/
theorem adds_valueless (h : LegibleLayout c)
    (hline : Text.hasBreak f.name = false) (hmarks : f.quotes ∈ markPairs)
    (p : Page) :
    p.Adds
      ((p.string c (" " ++ f.name)).string c ("=" ++ f.quotes.1 ++ f.quotes.2))
      (" " ++ f.name ++ ("=" ++ f.quotes.1) ++ "" ++ f.quotes.2) := by
  obtain ⟨hopenLine, hcloseLine⟩ := hasBreak_marks hmarks
  have hmarksLine : Text.hasBreak ("=" ++ f.quotes.1 ++ f.quotes.2) =
      false := by
    rw [Text.hasBreak_append, hopenLine, hcloseLine]
    rfl
  have hboth := (adds_name h hline p).trans (adds_string h.plain _ hmarksLine)
  rw [← String.append_assoc] at hboth
  rwa [String.append_empty]

end

/-- An attribute shows itself if it is written in double quotes, and nothing
otherwise. -/
theorem shows_writeAttribute (h : LegibleLayout c) {a : Attribute}
    (ha : IsLegible c.options a) (p : Page) :
    p.Shows c.options (writeAttribute c p a)
      (quotedForm? c.options a).toList := by
  cases hname : a.name with
  | none =>
    rw [writeAttribute, quotedForm?, hname]
    exact .refl _ p
  | some name =>
    obtain ⟨noEquals, hline⟩ := ha.name name hname
    have hvalue := ha.value name hname
    have hmarks := quotes_form_mem_markPairs c.options a name
    rw [writeAttribute, quotedForm?, hname]
    dsimp only
    generalize form c.options a name = f at *
    cases hform : f.value with
    | some value =>
      rw [hform, Option.getD_some] at hvalue
      obtain ⟨text, hadds, hwritten⟩ :=
        exists_adds_valued h hline hmarks value p
      have htext : '=' ∉ text.toList ∧ '"' ∉ text.toList :=
        ⟨hwritten.not_mem hvalue.1 fun level => (h.not_mem_lineBreak level).1,
          hwritten.not_mem hvalue.2 fun level => (h.not_mem_lineBreak level).2⟩
      rw [apply_ite Option.toList]
      exact shows_of_adds hmarks hadds noEquals htext hwritten
    | none =>
      dsimp only
      by_cases hhtml : c.options.selfClosing = .html
      · rw [if_pos hhtml, if_pos hhtml, ite_self]
        exact .of_noEquals (adds_name h hline p) (by simp [noEquals])
      · rw [if_neg hhtml, if_neg hhtml, apply_ite Option.toList]
        exact shows_of_adds hmarks (adds_valueless h hline hmarks p) noEquals
          (by simp) .nil

theorem shows_writeAttributes (h : LegibleLayout c)
    {attributes : List Attribute}
    (hattributes : ∀ a ∈ attributes, IsLegible c.options a) (p : Page) :
    p.Shows c.options (attributes.foldl (writeAttribute c) p)
      (attributes.filterMap (quotedForm? c.options)) := by
  induction attributes generalizing p with
  | nil => exact .refl _ p
  | cons a attributes ih =>
    rw [List.forall_mem_cons] at hattributes
    have hboth :=
      (shows_writeAttribute h hattributes.1 p).trans (ih hattributes.2 _)
    rw [List.foldl_cons, List.filterMap_cons]
    cases hform : quotedForm? c.options a <;> simpa [hform] using hboth

theorem not_mem_plainText {x : Char} {ps : List Piece} :
    x ∉ (Piece.plainText ps).toList ↔ ∀ piece ∈ ps, x ∉ piece.plain.toList := by
  simp [Piece.plainText, String.toList_join]

theorem subset_of_cutAtField? {value before behind : List Piece}
    (hcut : cutAtField? value = some (before, behind)) :
    before ⊆ value ∧ behind ⊆ value := by
  induction value generalizing before with
  | nil => simp [cutAtField?] at hcut
  | cons piece value ih =>
    cases piece with
    | field index name =>
      simp only [cutAtField?, Option.some.injEq, Prod.mk.injEq] at hcut
      obtain ⟨rfl, rfl⟩ := hcut
      simp
    | text s =>
      simp only [cutAtField?, Option.map_eq_some_iff, Prod.mk.injEq,
        Prod.exists] at hcut
      obtain ⟨before', _, hcut, rfl, rfl⟩ := hcut
      obtain ⟨hbefore, hbehind⟩ := ih hcut
      exact ⟨List.cons_subset_cons _ hbefore,
        List.subset_cons_of_subset _ hbehind⟩

theorem shows_writeBehind (h : LegibleLayout c) (brokeLine : Bool)
    {behind : List Piece} (noEquals : '=' ∉ (Piece.plainText behind).toList)
    (p : Page) : p.Shows c.options (writeBehind c brokeLine behind p) [] := by
  rw [writeBehind.eq_def]
  split
  · rename_i s rest
    rw [not_mem_plainText, List.forall_mem_cons, ← not_mem_plainText]
      at noEquals
    have hfirst :=
      shows_string h p (s := String.ofList (Text.dropBlanks s.toList)) (by
      rw [String.toList_ofList]
      exact fun hmem => noEquals.1 ((List.dropWhile_sublist _).subset hmem))
    dsimp only
    split
    · exact hfirst
    · exact hfirst.trans_nil (shows_pieces h _ noEquals.2)
  · exact .refl _ p
  · exact shows_pieces h p noEquals

/-- All that a tag shows of its attributes when it is written. -/
def shownForms (o : Options) (t : Tag) : List (String × String) :=
  (t.attributeList.filter isWritten).filterMap (quotedForm? o)

/-- A tag that shows its attributes and nothing else: there is no equals sign
but theirs, and a nameless one has something to write and no attributes. -/
structure IsLegibleTag (o : Options) (t : Tag) : Prop where
  name : ∀ name ∈ t.name, '=' ∉ (o.tagCase.apply name).toList
  nameless : t.name = none → t.value.isSome = true ∧ t.attributeList = []
  value : '=' ∉ t.valueText.toList
  attributes : ∀ a ∈ t.attributeList, IsLegible o a

section

variable {t : Tag} {hasChildren : Bool} {below : Page → Page}
    {entries : List (String × String)}

/-- Nodes in the midst of a value show what they show elsewhere. -/
theorem shows_wrapAround? (h : LegibleLayout c) (ht : IsLegibleTag c.options t)
    (hbelow : ∀ p : Page, p.Shows c.options (below p) entries) {p q : Page}
    (hwrap : wrapAround? c t hasChildren below p = some q) :
    p.Shows c.options q entries := by
  cases hasChildren with
  | false => simp [wrapAround?] at hwrap
  | true =>
    cases hcut : cutAtField? (t.value.getD []) with
    | none => simp [wrapAround?, hcut] at hwrap
    | some parts =>
      obtain ⟨before, behind⟩ := parts
      have hvalue := not_mem_plainText.1 ht.value
      obtain ⟨hbefore, hbehind⟩ := subset_of_cutAtField? hcut
      simp only [wrapAround?, hcut, Bool.not_true, Bool.false_eq_true, if_false,
        Option.some.injEq] at hwrap
      rw [← hwrap]
      have hfront :=
        shows_pieces h p (not_mem_plainText.2 fun x hx => hvalue x (hbefore hx))
      have hback := shows_writeBehind h
        ((below (p.pieces c before)).out.line != (p.pieces c before).out.line)
        (not_mem_plainText.2 fun x hx => hvalue x (hbehind hx))
          (below (p.pieces c before))
      exact (hfront.nil_trans (hbelow _)).trans_nil hback

theorem shows_writeValue (h : LegibleLayout c) {value : List Piece}
    (noEquals : '=' ∉ (Piece.plainText value).toList) (p : Page) :
    p.Shows c.options (writeValue c value p) [] :=
  shows_onOwnLines h _ (fun p => shows_pieces h p noEquals) p

theorem shows_writeCaret (h : LegibleLayout c) (name : String) (p : Page) :
    p.Shows c.options (writeCaret c name p) [] :=
  shows_onOwnLines h _ (fun p =>
    shows_pieces h p (by simp [caret, Piece.plainText, Piece.plain])) p

/-- A named element shows its attributes and then what the nodes below it
show. -/
theorem shows_writeElement (h : LegibleLayout c) (ht : IsLegibleTag c.options t)
    {name : String} (hname : t.name = some name)
    (hbelow : ∀ p : Page, p.Shows c.options (below p) entries)
    (hleaf : hasChildren = false → entries = []) (p : Page) :
    p.Shows c.options (writeElement c t name hasChildren below p)
      (shownForms c.options t ++ entries) := by
  have hnameEquals := ht.name name hname
  have hopening := shows_string h p (s := "<" ++ c.options.tagCase.apply name)
    (by simp [hnameEquals])
  have hwritten : ∀ a ∈ t.attributeList.filter isWritten,
      IsLegible c.options a :=
    fun a ha => ht.attributes a (List.mem_of_mem_filter ha)
  have hattributes := hopening.nil_trans (shows_writeAttributes h hwritten _)
  rw [writeElement]
  dsimp only
  split
  case isTrue hclosed =>
    have hnone : hasChildren = false := by simp_all
    have hmark :
        '=' ∉ (selfClosingMark c.options.selfClosing ++ ">").toList := by
      cases c.options.selfClosing <;> decide
    rw [hleaf hnone, List.append_nil]
    exact hattributes.trans_nil (shows_string h _ hmark)
  case isFalse =>
    have hinside :=
      hattributes.trans_nil (shows_string h _ (s := ">") (by decide))
    have hclosing :
        '=' ∉ ("</" ++ c.options.tagCase.apply name ++ ">").toList := by
      simp [hnameEquals]
    generalize Page.string c _ ">" = inside at hinside ⊢
    refine Page.Shows.trans_nil ?_ (shows_string h _ hclosing)
    cases hwrap : wrapAround? c t hasChildren below inside with
    | some q => exact hinside.trans (shows_wrapAround? h ht hbelow hwrap)
    | none =>
      cases hvalue : t.value with
      | some value =>
        have hquiet : '=' ∉ (Piece.plainText value).toList := by
          simpa [Tag.valueText, hvalue] using ht.value
        exact hinside.trans
          ((shows_writeValue h hquiet inside).nil_trans (hbelow _))
      | none =>
        cases hasChildren with
        | true => exact hinside.trans (hbelow inside)
        | false =>
          rw [hleaf rfl, List.append_nil]
          exact hinside.trans_nil (shows_writeCaret h name inside)

/-- A nameless node shows what the nodes below it show. -/
theorem shows_writeText (h : LegibleLayout c) (ht : IsLegibleTag c.options t)
    (hname : t.name = none)
    (hbelow : ∀ p : Page, p.Shows c.options (below p) entries) (p : Page) :
    p.Shows c.options (writeText c t hasChildren below p)
      (shownForms c.options t ++ entries) := by
  obtain ⟨hvalued, hattributes⟩ := ht.nameless hname
  obtain ⟨value, hvalue⟩ := Option.isSome_iff_exists.1 hvalued
  have hquiet : '=' ∉ (Piece.plainText value).toList := by
    simpa [Tag.valueText, hvalue] using ht.value
  rw [writeText, shownForms, hattributes]
  cases hwrap : wrapAround? c t hasChildren below p with
  | some q => exact shows_wrapAround? h ht hbelow hwrap
  | none =>
    rw [hvalue]
    exact (shows_pieces h p hquiet).nil_trans (hbelow _)

end

theorem shows_finish (h : LegibleLayout c) (place : Place) (begins : Bool)
    (p : Page) : p.Shows c.options (finish c place begins p) [] := by
  rw [finish]
  split
  · exact shows_newline h p _
  · exact .refl _ p

mutual

/-- One node: its lines show nothing besides. -/
theorem shows_writeNode (h : LegibleLayout c) (n : Node)
    (hn : ∀ t ∈ n.preorder, IsLegibleTag c.options t) (place : Place)
    (p : Page) :
    p.Shows c.options (writeNode c place n p)
      (n.preorder.flatMap (shownForms c.options)) := by
  match n with
  | ⟨tag, children⟩ =>
    rw [Node.preorder_mk, List.forall_mem_cons] at hn
    have hbelow := shows_writeNodes h children hn.2 (some tag) []
    have hleaf : (!children.isEmpty) = false →
        (Node.preorders children).flatMap (shownForms c.options) = [] := by
      intro hempty
      rw [Bool.not_eq_false', List.isEmpty_iff] at hempty
      rw [hempty]
      rfl
    rw [Node.preorder_mk, List.flatMap_cons, writeNode]
    have hshift := shows_shift c.options p (indentStep c.options place.parent)
    generalize (beginsLine? c.options place tag (!children.isEmpty)).getD
      _ = begins
    have hbegin : p.Shows c.options (if begins then
        (p.shift (indentStep c.options place.parent)).freshLine c
        else p.shift (indentStep c.options place.parent)) [] := by
      split
      · exact hshift.trans_nil (shows_newline h _ _)
      · exact hshift
    refine .trans_nil (.trans_nil (hbegin.nil_trans ?_)
      (shows_finish h place begins _)) (shows_shift _ _ _)
    cases hname : tag.name with
    | some name => exact shows_writeElement h hn.1 hname hbelow hleaf _
    | none => exact shows_writeText h hn.1 hname hbelow _

/-- Nodes one behind the other, wherever they stand. -/
theorem shows_writeNodes (h : LegibleLayout c) (ns : List Node)
    (hns : ∀ t ∈ Node.preorders ns, IsLegibleTag c.options t)
    (parent : Option Tag) (before : List Tag) (p : Page) :
    p.Shows c.options (writeNodes c parent before ns p)
      ((Node.preorders ns).flatMap (shownForms c.options)) := by
  match ns with
  | [] =>
    rw [writeNodes]
    exact .refl _ p
  | n :: ns =>
    rw [Node.preorders_cons] at hns
    rw [writeNodes, Node.preorders_cons, List.flatMap_append]
    exact (shows_writeNode h n (fun t ht =>
      hns t (List.mem_append_left _ ht)) _ p).trans
      (shows_writeNodes h ns (fun t ht =>
        hns t (List.mem_append_right _ ht)) parent _ _)

end

/-- Markup shows the attributes of its nodes in document order and nothing
else. -/
theorem exists_shows_page (h : LegibleLayout c) {nodes : List Node}
    (hnodes : ∀ t ∈ Node.preorders nodes, IsLegibleTag c.options t) :
    ∃ shown, Selectors.Shows (page c nodes).out.text.toList shown ∧
      List.Forall₂ (ShownAs c.options)
        ((Node.preorders nodes).flatMap (shownForms c.options)) shown := by
  obtain ⟨text, shown, htext, hshows, hentries⟩ :=
    shows_writeNodes h nodes hnodes none [] {}
  have hpage : (page c nodes).out.text = text := htext.trans String.empty_append
  rw [hpage]
  exact ⟨shown, hshows, hentries⟩

end Tagged

end Scaffold.Markup

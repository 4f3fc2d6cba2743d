import Mathlib
import Scaffold.Proofs.Component.Showing
import Scaffold.Proofs.Markup.Serializing
import Scaffold.Proofs.Text.Case
/-!
Markup without formatting.  With formatting off no node begins a line.  What
remains are the lines that options and values ask for by themselves: an empty
element of the list for it has lines of its own, and so has a value that begins
with the tag of a block element.  Markup without these is the plain
concatenation of tags, attributes, values and children.  Main statement:
`render_unformatted`.
-/
namespace Scaffold.Markup

open Tagged

/-- The pieces of a value around the nodes below a tag, if there are some and a
place for them. -/
def wrapping? (t : Tag) (hasChildren : Bool) :
    Option (List Piece × List Piece) :=
  if hasChildren then cutAtField? (t.value.getD []) else none

/-- Whether the content of a node is on lines of its own without formatting. -/
def isApart (o : Options) (t : Tag) (hasChildren : Bool) : Bool :=
  match t.name, t.value with
  | none, _ => false
  | some _, some value =>
    beginsWithBlock o value && (wrapping? t hasChildren).isNone
  | some name, none =>
    !hasChildren && !t.selfClosing && Options.lists o.formatForce name

mutual

/-- Whether there are lines of their own in what is written of a node: nothing
is written of one without name and value. -/
def holdsApart (o : Options) : Node → Bool
  | ⟨tag, children⟩ =>
    (tag.name.isSome || tag.value.isSome) &&
      (isApart o tag (!children.isEmpty) || anyHoldsApart o children)

def anyHoldsApart (o : Options) : List Node → Bool
  | [] => false
  | n :: ns => holdsApart o n || anyHoldsApart o ns

end

namespace Plain

/-- A text, on lines of its own one level further in if wanted. -/
def apart (o : Options) (wanted : Bool) (level : Nat) (s : String) : String :=
  if wanted then lineBreak o (level + 1) ++ s ++ lineBreak o level else s

/-- Pieces behind nodes; where lines ended in these, a text loses the blanks in
front. -/
def behind (broke : Bool) : List Piece → String
  | [] => ""
  | .text s :: rest =>
    (if broke then String.ofList (Text.dropBlanks s.toList) else s) ++
      Piece.plainText rest
  | .field index name :: rest => Piece.plainText (.field index name :: rest)

/-- What a node at a level holds, with the nodes below it. -/
def content (o : Options) (level : Nat) (t : Tag) (hasChildren broke : Bool)
    (below : String) : String :=
  match wrapping? t hasChildren with
  | some (front, rest) => Piece.plainText front ++ below ++ behind broke rest
  | none =>
    apart o (isApart o t hasChildren) level
      (Piece.plainText (t.value.getD [])) ++ below

/-- An element around its content, if it is not its own end. -/
def enclosed (o : Options) (t : Tag) (rawName : String) (hasChildren : Bool)
    (content : String) : String :=
  let name := o.tagCase.apply rawName
  if t.selfClosing && !hasChildren && t.value.isNone then
    "<" ++ name ++ attributesText o t ++ selfClosingMark o.selfClosing ++ ">"
  else
    "<" ++ name ++ attributesText o t ++ ">" ++ content ++ "</" ++ name ++ ">"

mutual

/-- The markup of a node at a level, in which lines begin for what is apart
only. -/
def unformatted (o : Options) (level : Nat) : Node → String
  | ⟨tag, children⟩ =>
    let below :=
      unformattedOf o (level + (indentStep o (some tag)).toNat) children
    let inside :=
      content o level tag (!children.isEmpty) (anyHoldsApart o children) below
    match tag.name with
    | some name => enclosed o tag name (!children.isEmpty) inside
    | none => if tag.value.isSome then inside else ""

def unformattedOf (o : Options) (level : Nat) : List Node → String
  | [] => ""
  | n :: ns => unformatted o level n ++ unformattedOf o level ns

end

mutual

/-- The plain serialization of what is written of a node. -/
def shown (o : Options) : Node → String
  | ⟨tag, children⟩ =>
    match tag.name with
    | some name => element o tag name (!children.isEmpty) (shownOf o children)
    | none =>
      if tag.value.isSome then body tag (!children.isEmpty) (shownOf o children)
      else ""

def shownOf (o : Options) : List Node → String
  | [] => ""
  | n :: ns => shown o n ++ shownOf o ns

end

end Plain

def areOneLine (ps : List Piece) : Bool :=
  ps.all fun x => !Text.hasBreak x.plain

def isOneLineName (name : Option String) : Bool :=
  name.all fun s => !Text.hasBreak s

def isOneLineAttribute (a : Attribute) : Bool :=
  isOneLineName a.name && areOneLine (a.value.getD [])

def isOneLine (t : Tag) : Bool :=
  isOneLineName t.name && areOneLine (t.value.getD []) &&
    t.attributeList.all isOneLineAttribute

/-- A configuration without formatting and without hooks, whose lines end with a
line feed, and in which attributes are not renamed over lines. -/
structure Unformatted (c : Config) : Prop where
  hooks : c.hooks = {}
  format : c.options.format = false
  leaf : c.options.formatLeafNode = false
  newline : c.options.newline = "\n"
  renames : c.options.jsx = true →
    ∀ entry ∈ c.options.jsxAttributeNames ++ c.options.jsxValuePrefix,
      Text.hasBreak entry.2 = false

section OneLine

variable {ps qs : List Piece}

theorem areOneLine_iff :
    areOneLine ps = true ↔ ∀ x ∈ ps, Text.hasBreak x.plain = false := by
  simp [areOneLine]

theorem areOneLine_of_subset (hsubset : ps ⊆ qs) (h : areOneLine qs = true) :
    areOneLine ps = true :=
  areOneLine_iff.2 fun x hx => areOneLine_iff.1 h x (hsubset hx)

theorem hasBreak_dropBlanks {s : String} (h : Text.hasBreak s = false) :
    Text.hasBreak (String.ofList (Text.dropBlanks s.toList)) = false := by
  rw [Text.hasBreak_eq_false_iff, List.all_eq_true] at h ⊢
  rw [String.toList_ofList]
  exact fun ch hch => h ch ((List.dropWhile_suffix _).subset hch)

theorem any_spansLines (h : areOneLine ps = true) :
    ps.any spansLines = false := by
  rw [List.any_eq_false]
  intro x hx
  cases x with
  | text s =>
    have hs : Text.hasBreak s = false := areOneLine_iff.1 h (.text s) hx
    simp [spansLines, hs]
  | field index name => exact Bool.false_ne_true

end OneLine

section Forms

variable {c : Config} {a : Attribute} {name : String}

theorem exists_mem_of_renamed? {map : List (String × String)} {multiple : Bool}
    {new : String} (h : renamed? map name multiple = some new) :
    ∃ entry ∈ map, entry.2 = new := by
  have hlookup : ∀ key, map.lookup key = some new →
      ∃ entry ∈ map, entry.2 = new := by
    intro key hkey
    obtain ⟨front, rest, rfl, -⟩ := List.lookup_eq_some_iff.1 hkey
    exact ⟨(key, new), by simp, rfl⟩
  rw [renamed?, Option.or_eq_some_iff] at h
  rcases h with h | ⟨-, h⟩
  · split at h
    · exact hlookup _ h
    · cases h
  · exact hlookup _ h

/-- An attribute of one line has one line in every form, whatever stands for its
name. -/
theorem hasBreak_baseForm (h : Unformatted c)
    (hname : Text.hasBreak name = false)
    (hvalue : areOneLine (a.value.getD []) = true) :
    Text.hasBreak (baseForm c.options a name).name = false ∧
      areOneLine ((baseForm c.options a name).value.getD []) = true := by
  rw [baseForm]
  by_cases hjsx : c.options.jsx = true
  · have hrenamed : ∀ map : List (String × String),
        (∀ entry ∈ map, Text.hasBreak entry.2 = false) →
        ∀ new, renamed? map name a.multiple = some new →
          Text.hasBreak new = false := by
      intro map hmap new hnew
      obtain ⟨entry, hentry, rfl⟩ := exists_mem_of_renamed? hnew
      exact hmap entry hentry
    have hentries := h.renames hjsx
    rw [List.forall_mem_append] at hentries
    have hnew : Text.hasBreak
        ((renamed? c.options.jsxAttributeNames name a.multiple).getD name) =
        false := by
      cases hlookup : renamed? c.options.jsxAttributeNames name a.multiple with
      | none => exact hname
      | some new => exact hrenamed _ hentries.1 new hlookup
    rw [hjsx]
    simp only [Bool.not_true, Bool.false_eq_true, if_false]
    split
    · next object s hobject heq =>
      have hs : Text.hasBreak s = false := by
        simpa [heq, areOneLine, Piece.plain] using hvalue
      have hmember := hrenamed _ hentries.2 object hobject
      have hdot : Text.hasBreak "." = false ∧ Text.hasBreak "['" = false ∧
        Text.hasBreak "']" = false := by decide
      refine ⟨hnew, ?_⟩
      split <;>
        simp [areOneLine, Piece.plain, Text.hasBreak_append, hmember, hs, hdot]
    · exact ⟨hnew, hvalue⟩
  · rw [Bool.not_eq_true] at hjsx
    rw [hjsx]
    exact ⟨hname, hvalue⟩

theorem hasBreak_form (h : Unformatted c) (hname : Text.hasBreak name = false)
    (hvalue : areOneLine (a.value.getD []) = true) :
    Text.hasBreak (form c.options a name).name = false ∧
      areOneLine ((form c.options a name).value.getD []) = true := by
  obtain ⟨hbase, hpieces⟩ := hasBreak_baseForm h hname hvalue
  have hcase := Text.hasBreak_apply c.options.attributeCase hbase
  refine ⟨hcase, ?_⟩
  rw [form]
  dsimp only
  split
  · exact hpieces
  · split
    · split
      · rfl
      · simpa [areOneLine, Piece.plain] using hcase
    · decide

end Forms

namespace Page

/-- A page has a text behind what another one has, is at the same level, and is
further down just if the text has line breaks. -/
structure Reaches (p q : Page) (s : String) (broke : Bool) :
    Prop extends p.Adds q s where
  le : p.out.line ≤ q.out.line
  moved : (q.out.line != p.out.line) = broke
  breaks : Text.hasBreak s = broke

variable {c : Config} {p q r : Page} {s t : String} {broke broke' : Bool}

namespace Reaches

theorem refl (p : Page) : p.Reaches p "" false :=
  ⟨.refl p, Nat.le_refl _, bne_self_eq_false _, rfl⟩

theorem trans (h : p.Reaches q s broke) (h' : q.Reaches r t broke') :
    p.Reaches r (s ++ t) (broke || broke') := by
  refine ⟨h.toAdds.trans h'.toAdds, Nat.le_trans h.le h'.le, ?_,
    by rw [Text.hasBreak_append, h.breaks, h'.breaks]⟩
  have hle := h.le
  have hle' := h'.le
  rw [← h.moved, ← h'.moved, Bool.eq_iff_iff]
  simp only [Bool.or_eq_true, bne_iff_ne, ne_eq]
  omega

/-- Behind a text without line breaks. -/
theorem behind (h : p.Reaches q s false) (h' : q.Reaches r t broke) :
    p.Reaches r (s ++ t) broke :=
  h.trans h'

/-- In front of a text without line breaks. -/
theorem inFront (h : p.Reaches q s broke) (h' : q.Reaches r t false) :
    p.Reaches r (s ++ t) broke := by
  have hboth := h.trans h'
  rwa [Bool.or_false] at hboth

theorem unshift {n : Int} (h : (p.shift n).Reaches q s broke) :
    p.Reaches (q.shift (-n)) s broke :=
  ⟨h.toAdds.unshift, h.le, h.moved, h.breaks⟩

end Reaches

theorem reaches_string (plain : ∀ s, c.hooks.text s = s) (p : Page)
    (hline : Text.hasBreak s = false) : p.Reaches (p.string c s) s false := by
  have hsame : (p.string c s).out.line = p.out.line := by
    rw [string, Output.string, Text.lines_of_hasBreak_eq_false hline]
    rfl
  exact ⟨adds_string plain p hline, Nat.le_of_eq hsame.symm,
    by rw [hsame, bne_self_eq_false], hline⟩

theorem reaches_freshLine (h : c.options.newline = "\n") {level : Nat}
    (p : Page) (hlevel : p.out.level = level) :
    p.Reaches (p.freshLine c) (lineBreak c.options level) true := by
  have hnext : (p.freshLine c).out.line = p.out.line + 1 := by
    rw [freshLine, newline, Output.newline]
    split <;> rfl
  have hbreak : Text.hasBreak (lineBreak c.options level) = true := by
    rw [lineBreak, h, Text.hasBreak_append, Text.hasBreak_append]
    rfl
  exact ⟨adds_freshLine p hlevel, by omega, by rw [hnext]; simp, hbreak⟩

theorem reaches_piece (hooks : c.hooks = {}) (p : Page) {x : Piece}
    (hline : Text.hasBreak x.plain = false) :
    p.Reaches (p.piece c x) x.plain false := by
  cases x with
  | text s => exact reaches_string (by simp [hooks]) p hline
  | field index name =>
    have hname : c.hooks.field (p.fieldBase + index) name = name := by
      rw [hooks]
    exact ⟨⟨by rw [piece, Output.field, Output.raw, hname]; rfl, rfl⟩,
      Nat.le_refl _, bne_self_eq_false _, hline⟩

/-- Pieces without line breaks are written as they are. -/
theorem reaches_pieces (hooks : c.hooks = {}) (p : Page) {ps : List Piece}
    (hline : areOneLine ps = true) :
    p.Reaches (p.pieces c ps) (Piece.plainText ps) false := by
  have hfold : p.Reaches (ps.foldl (piece c) p) (Piece.plainText ps) false := by
    rw [areOneLine_iff] at hline
    induction ps generalizing p with
    | nil => exact .refl p
    | cons x ps ih =>
      rw [List.forall_mem_cons] at hline
      have hboth :=
        (reaches_piece hooks p hline.1).behind (ih (p.piece c x) hline.2)
      rwa [Piece.plainText, List.map_cons, String.join_cons]
  rw [pieces]
  split
  · exact ⟨⟨hfold.text, hfold.level⟩, hfold.le, hfold.moved, hfold.breaks⟩
  · exact hfold

theorem reaches_onOwnLines (h : c.options.newline = "\n") (wanted : Bool)
    {write : Page → Page} (hwrite : ∀ q : Page, q.Reaches (write q) s false)
    (p : Page) {level : Nat} (hlevel : p.out.level = level) :
    p.Reaches (p.onOwnLines c wanted write)
      (Plain.apart c.options wanted level s) wanted := by
  cases wanted with
  | false => exact hwrite p
  | true =>
    have hfresh : (p.shift 1).Reaches ((p.shift 1).freshLine c)
        (lineBreak c.options (level + 1)) true := by
      apply reaches_freshLine h
      change p.out.level + 1 = ((level + 1 : Nat) : Int)
      omega
    have hinside := (hfresh.inFront (hwrite _)).unshift
    exact hinside.trans (reaches_freshLine h _ (hinside.level.trans hlevel))

end Page

namespace Tagged

variable {c : Config}

theorem isOneLine_iff {t : Tag} : isOneLine t = true ↔
    isOneLineName t.name = true ∧ areOneLine (t.value.getD []) = true ∧
      ∀ a ∈ t.attributeList, isOneLineAttribute a = true := by
  simp [isOneLine, and_assoc]

theorem reaches_writeAttribute (h : Unformatted c) {a : Attribute}
    (hline : isOneLineAttribute a = true) (p : Page) :
    p.Reaches (writeAttribute c p a)
      (Plain.attributeText c.options a) false := by
  rw [isOneLineAttribute, Bool.and_eq_true] at hline
  have plain : ∀ s, c.hooks.text s = s := by simp [h.hooks]
  rw [writeAttribute, Plain.attributeText]
  cases hcase : a.name with
  | none => exact .refl p
  | some name =>
    obtain ⟨hform, hpieces⟩ :=
      hasBreak_form h (by simpa [hcase, isOneLineName] using hline.1) hline.2
    have hmarks := hasBreak_marks (quotes_form_mem_markPairs c.options a name)
    dsimp only
    generalize form c.options a name = f at *
    have hspace : Text.hasBreak (" " ++ f.name) = false := by
      rw [Text.hasBreak_append, hform]
      rfl
    have hfront := Page.reaches_string plain p hspace
    cases hvalue : f.value with
    | some value =>
      rw [hvalue, Option.getD_some] at hpieces
      have hall := ((hfront.behind (Page.reaches_string plain
        _ hmarks.1)).behind (Page.reaches_pieces h.hooks _ hpieces)).behind
        (Page.reaches_string plain _ hmarks.2)
      simpa only [String.append_assoc] using hall
    | none =>
      dsimp only
      split
      · exact hfront
      · have hboth : Text.hasBreak ("=" ++ f.quotes.1 ++ f.quotes.2) =
            false := by
          rw [Text.hasBreak_append, hmarks.1, hmarks.2]
          rfl
        simpa only [String.append_assoc]
          using hfront.behind (Page.reaches_string plain _ hboth)

theorem reaches_foldl_writeAttribute (h : Unformatted c)
    {attributes : List Attribute}
    (hline : ∀ a ∈ attributes, isOneLineAttribute a = true) (p : Page) :
    p.Reaches (attributes.foldl (writeAttribute c) p)
      (String.join (attributes.map (Plain.attributeText c.options))) false := by
  induction attributes generalizing p with
  | nil => exact .refl p
  | cons a attributes ih =>
    rw [List.forall_mem_cons] at hline
    have hfirst := reaches_writeAttribute h hline.1 p
    rw [List.foldl_cons, List.map_cons, String.join_cons]
    exact hfirst.behind (ih hline.2 _)

theorem reaches_writeBehind (h : Unformatted c) (broke : Bool) {ps : List Piece}
    (hline : areOneLine ps = true) (p : Page) :
    p.Reaches (writeBehind c broke ps p) (Plain.behind broke ps) false := by
  have plain : ∀ s, c.hooks.text s = s := by simp [h.hooks]
  match broke, ps with
  | true, [] => exact .refl p
  | false, [] => exact .refl p
  | true, .text s :: rest =>
    rw [areOneLine_iff, List.forall_mem_cons, ← areOneLine_iff] at hline
    have htext := Page.reaches_string plain p (hasBreak_dropBlanks hline.1)
    simp only [writeBehind, Plain.behind, if_true]
    split
    · next hempty =>
      obtain rfl := List.isEmpty_iff.1 hempty
      exact htext.behind (.refl _)
    · exact htext.behind (Page.reaches_pieces h.hooks _ hline.2)
  | false, .text s :: rest =>
    have hpieces := Page.reaches_pieces h.hooks p hline
    rwa [Piece.plainText, List.map_cons, String.join_cons] at hpieces
  | true, .field index name :: rest => exact Page.reaches_pieces h.hooks p hline
  | false, .field index name :: rest =>
    exact Page.reaches_pieces h.hooks p hline

theorem reaches_writeValue (h : Unformatted c) {value : List Piece}
    (hline : areOneLine value = true) (p : Page) {level : Nat}
    (hlevel : p.out.level = level) :
    p.Reaches (writeValue c value p)
      (Plain.apart c.options (beginsWithBlock c.options value) level
        (Piece.plainText value))
      (beginsWithBlock c.options value) := by
  rw [writeValue, any_spansLines hline, Bool.false_or]
  exact Page.reaches_onOwnLines h.newline
    _ (fun q => Page.reaches_pieces h.hooks q hline) p hlevel

theorem reaches_writeCaret (h : Unformatted c) (name : String) (p : Page)
    {level : Nat} (hlevel : p.out.level = level) :
    p.Reaches (writeCaret c name p)
      (Plain.apart c.options
        (Options.lists c.options.formatForce name) level "")
      (Options.lists c.options.formatForce name) := by
  rw [writeCaret, h.leaf, Bool.false_or]
  exact Page.reaches_onOwnLines h.newline
    _ (fun q => Page.reaches_pieces h.hooks q (by decide)) p hlevel

section Content

variable {t : Tag} {hasChildren : Bool} {below : Page → Page} {text : String}
    {broke : Bool} {level : Nat}

theorem wrapAround?_eq (c : Config) (t : Tag) (hasChildren : Bool)
    (below : Page → Page) (p : Page) :
    wrapAround? c t hasChildren below p =
      (wrapping? t hasChildren).map fun parts => writeBehind c
      ((below (p.pieces c parts.1)).out.line != (p.pieces c parts.1).out.line)
      parts.2 (below (p.pieces c parts.1)) := by
  cases hasChildren with
  | false => rfl
  | true =>
    rw [wrapAround?, wrapping?]
    cases cutAtField? (t.value.getD []) <;> rfl

theorem areOneLine_of_wrapping? (hline : areOneLine (t.value.getD []) = true)
    {parts : List Piece × List Piece}
    (hwrap : wrapping? t hasChildren = some parts) :
    areOneLine parts.1 = true ∧ areOneLine parts.2 = true := by
  cases hasChildren with
  | false => cases hwrap
  | true =>
    obtain ⟨hfront, hrest⟩ := subset_of_cutAtField? hwrap
    exact ⟨areOneLine_of_subset hfront hline, areOneLine_of_subset hrest hline⟩

/-- A value around nodes is not on lines of its own. -/
theorem isApart_of_wrapping? (o : Options) {parts : List Piece × List Piece}
    (hwrap : wrapping? t hasChildren = some parts) :
    isApart o t hasChildren = false := by
  rw [isApart]
  split
  · rfl
  · rw [hwrap]
    exact Bool.and_false _
  · next hvalue =>
    rw [wrapping?, hvalue] at hwrap
    cases hasChildren <;> cases hwrap

/-- Nodes in the midst of a value around them. -/
theorem reaches_wrapped (h : Unformatted c)
    (hline : areOneLine (t.value.getD []) = true)
    (hbelow : ∀ q : Page, q.out.level = level → q.Reaches (below q) text broke)
    {parts : List Piece × List Piece}
    (hwrap : wrapping? t hasChildren = some parts) (p : Page)
    (hlevel : p.out.level = level) :
    p.Reaches (writeBehind c ((below (p.pieces c parts.1)).out.line !=
        (p.pieces c parts.1).out.line) parts.2 (below (p.pieces c parts.1)))
      (Plain.content c.options level t hasChildren broke text)
      (isApart c.options t hasChildren || broke) := by
  obtain ⟨hfront, hrest⟩ := areOneLine_of_wrapping? hline hwrap
  have hpieces := Page.reaches_pieces h.hooks p hfront
  have hnodes := hbelow _ (hpieces.level.trans hlevel)
  rw [hnodes.moved, Plain.content, hwrap, isApart_of_wrapping? c.options hwrap,
    Bool.false_or]
  exact (hpieces.behind hnodes).inFront (reaches_writeBehind h broke hrest _)

/-- What stands between the tags of an element that is not its own end. -/
theorem reaches_elementContent (h : Unformatted c) {name : String}
    (hname : t.name = some name) (hline : areOneLine (t.value.getD []) = true)
    (hopen : (t.selfClosing && !hasChildren && t.value.isNone) = false)
    (hbelow : ∀ q : Page, q.out.level = level → q.Reaches (below q) text broke)
    (hleaf : hasChildren = false → text = "" ∧ broke = false) (p : Page)
    (hlevel : p.out.level = level) :
    p.Reaches
      (match wrapAround? c t hasChildren below p with
        | some p => p
        | none =>
          match t.value with
          | some value => below (writeValue c value p)
          | none => if hasChildren then below p else writeCaret c name p)
      (Plain.content c.options level t hasChildren broke text)
      (isApart c.options t hasChildren || broke) := by
  rw [wrapAround?_eq]
  cases hwrap : wrapping? t hasChildren with
  | some parts => exact reaches_wrapped h hline hbelow hwrap p hlevel
  | none =>
    rw [Plain.content, hwrap]
    cases hvalue : t.value with
    | some value =>
      have hapart : isApart c.options t hasChildren =
          beginsWithBlock c.options value := by
        rw [isApart, hname, hvalue, hwrap]
        exact Bool.and_true _
      rw [hvalue] at hline
      have hown := reaches_writeValue h hline p hlevel
      rw [hapart]
      exact hown.trans (hbelow _ (hown.level.trans hlevel))
    | none =>
      cases hasChildren with
      | true =>
        have hapart : isApart c.options t true = false := by
          rw [isApart, hname, hvalue]
          rfl
        rw [hapart]
        exact Page.Reaches.behind (.refl p) (hbelow p hlevel)
      | false =>
        obtain ⟨rfl, rfl⟩ := hleaf rfl
        have hclosing : t.selfClosing = false := by simpa [hvalue] using hopen
        have hapart : isApart c.options t false =
            Options.lists c.options.formatForce name := by
          rw [isApart, hname, hvalue, hclosing]
          rfl
        rw [hapart]
        exact (reaches_writeCaret h name p hlevel).trans (.refl _)

theorem reaches_writeElement (h : Unformatted c) {name : String}
    (hname : t.name = some name) (hline : isOneLine t = true)
    (hbelow : ∀ q : Page, q.out.level = level → q.Reaches (below q) text broke)
    (hleaf : hasChildren = false → text = "" ∧ broke = false) (p : Page)
    (hlevel : p.out.level = level) :
    p.Reaches (writeElement c t name hasChildren below p)
      (Plain.enclosed c.options t name hasChildren
        (Plain.content c.options level t hasChildren broke text))
      (isApart c.options t hasChildren || broke) := by
  have plain : ∀ s, c.hooks.text s = s := by simp [h.hooks]
  obtain ⟨hlineName, hvalue, hattributes⟩ := isOneLine_iff.1 hline
  have hcase : Text.hasBreak (c.options.tagCase.apply name) = false :=
    Text.hasBreak_apply _ (by simpa [hname, isOneLineName] using hlineName)
  have htag : Text.hasBreak ("<" ++ c.options.tagCase.apply name) = false := by
    rw [Text.hasBreak_append, hcase]
    rfl
  have hwritten : ∀ a ∈ t.attributeList.filter isWritten,
      isOneLineAttribute a = true :=
    fun a ha => hattributes a (List.mem_of_mem_filter ha)
  have hopening := (Page.reaches_string plain p htag).behind
    (reaches_foldl_writeAttribute h hwritten _)
  rw [writeElement, Plain.enclosed, Plain.attributesText]
  dsimp only
  split
  · next hown =>
    -- an element that is its own end has no content that could be apart
    simp only [Bool.and_eq_true, Bool.not_eq_true', Option.isNone_iff_eq_none]
      at hown
    obtain ⟨⟨hclosing, rfl⟩, hnone⟩ := hown
    have hapart : isApart c.options t false = false := by
      rw [isApart, hname, hnone, hclosing]; rfl
    have hmark : Text.hasBreak (selfClosingMark c.options.selfClosing ++ ">") =
        false := by
      cases c.options.selfClosing <;> decide
    rw [hapart, (hleaf rfl).2, Bool.or_false]
    simpa only [String.append_assoc]
      using hopening.behind (Page.reaches_string plain _ hmark)
  · next hopen =>
    rw [Bool.not_eq_true] at hopen
    have hclosing : Text.hasBreak ("</" ++ c.options.tagCase.apply name ++
        ">") = false := by
      rw [Text.hasBreak_append, Text.hasBreak_append, hcase]
      rfl
    have hinside :=
      hopening.behind (Page.reaches_string plain _ (s := ">") (by decide))
    have hcontent := reaches_elementContent h hname hvalue hopen hbelow hleaf _
      (hinside.level.trans hlevel)
    have hall :=
      (hinside.behind hcontent).inFront (Page.reaches_string plain _ hclosing)
    simp only [String.append_assoc] at hall ⊢
    exact hall

theorem reaches_writeText (h : Unformatted c) (hname : t.name = none)
    (hline : areOneLine (t.value.getD []) = true)
    (hbelow : ∀ q : Page, q.out.level = level → q.Reaches (below q) text broke)
    (p : Page) (hlevel : p.out.level = level) :
    p.Reaches (writeText c t hasChildren below p)
      (if t.value.isSome then
        Plain.content c.options level t hasChildren broke text else "")
      (t.value.isSome && (isApart c.options t hasChildren || broke)) := by
  rw [writeText, wrapAround?_eq]
  cases hwrap : wrapping? t hasChildren with
  | some parts =>
    have hsome : t.value.isSome = true := by
      cases hvalue : t.value with
      | some value => rfl
      | none =>
        rw [wrapping?, hvalue] at hwrap
        cases hasChildren <;> cases hwrap
    rw [hsome, Bool.true_and]
    exact reaches_wrapped h hline hbelow hwrap p hlevel
  | none =>
    have hapart : isApart c.options t hasChildren = false := by
      rw [isApart, hname]
    rw [Plain.content, hwrap, hapart, Bool.false_or]
    cases hvalue : t.value with
    | none => exact .refl p
    | some value =>
      rw [hvalue] at hline
      have hpieces := Page.reaches_pieces h.hooks p hline
      exact hpieces.behind (hbelow _ (hpieces.level.trans hlevel))

end Content

theorem indentStep_nonneg (o : Options) (parent : Option Tag) :
    0 ≤ indentStep o parent := by
  cases parent with
  | none => exact Int.le_refl 0
  | some t =>
    rw [indentStep]
    split <;> decide

mutual

/-- A node adds its tags and its content, and begins lines for what is apart. -/
theorem reaches_writeNode (h : Unformatted c) (n : Node)
    (hlines : ∀ t ∈ n.preorder, isOneLine t = true) (place : Place)
    {level : Nat} (p : Page)
    (hlevel : p.out.level + indentStep c.options place.parent = level) :
    p.Reaches (writeNode c place n p) (Plain.unformatted c.options level n)
      (holdsApart c.options n) := by
  match n with
  | ⟨tag, children⟩ =>
    rw [Node.preorder_mk, List.forall_mem_cons] at hlines
    have hbelow : ∀ q : Page, q.out.level = level →
        q.Reaches (writeNodes c (some tag) [] children q)
          (Plain.unformattedOf c.options
            (level + (indentStep c.options (some tag)).toNat) children)
          (anyHoldsApart c.options children) := by
      intro q hq
      have hstep := indentStep_nonneg c.options (some tag)
      exact reaches_writeNodes h children hlines.2 (some tag) [] q (by omega)
    have hbegins : beginsLine? c.options place tag (!children.isEmpty) =
        some false := by
      rw [beginsLine?, h.format]
      rfl
    rw [writeNode, hbegins, Plain.unformatted, holdsApart]
    refine Page.Reaches.unshift ?_
    cases hname : tag.name with
    | some name =>
      have hleaf : (!children.isEmpty) = false →
          Plain.unformattedOf c.options
            (level + (indentStep c.options (some tag)).toNat) children =
            "" ∧ anyHoldsApart c.options children = false := by
        intro hempty
        obtain rfl : children = [] := by simpa using hempty
        exact ⟨rfl, rfl⟩
      exact reaches_writeElement h hname hlines.1 hbelow hleaf
        (p.shift (indentStep c.options place.parent)) hlevel
    | none =>
      exact reaches_writeText h hname (isOneLine_iff.1 hlines.1).2.1 hbelow
        (p.shift (indentStep c.options place.parent)) hlevel

theorem reaches_writeNodes (h : Unformatted c) (ns : List Node)
    (hlines : ∀ t ∈ Node.preorders ns, isOneLine t = true) (parent : Option Tag)
    (before : List Tag) {level : Nat} (p : Page)
    (hlevel : p.out.level + indentStep c.options parent = level) :
    p.Reaches (writeNodes c parent before ns p)
      (Plain.unformattedOf c.options level ns)
      (anyHoldsApart c.options ns) := by
  match ns with
  | [] => exact .refl p
  | n :: ns =>
    rw [Node.preorders_cons, List.forall_mem_append] at hlines
    have hfirst :=
      reaches_writeNode h n hlines.1 ⟨parent, before, ns.map (·.tag)⟩ p hlevel
    have hrest := reaches_writeNodes h ns hlines.2 parent (n.tag :: before) _
      ((congrArg (· + _) hfirst.level).trans hlevel)
    rw [writeNodes, Plain.unformattedOf, anyHoldsApart]
    exact hfirst.trans hrest

end

end Tagged

namespace Plain

variable {o : Options} {t : Tag} {hasChildren : Bool} {text : String}

theorem behind_false (ps : List Piece) :
    behind false ps = Piece.plainText ps := by
  match ps with
  | [] => rfl
  | .field index name :: rest => rfl
  | .text s :: rest =>
    rw [behind, Piece.plainText, Piece.plainText, List.map_cons,
      String.join_cons]
    rfl

/-- Without lines of its own, the content of a node is its value around or in
front of the nodes below it. -/
theorem content_eq_body (hapart : isApart o t hasChildren = false)
    (hleaf : hasChildren = false → text = "") (level : Nat) :
    content o level t hasChildren false text = body t hasChildren text := by
  rw [content, hapart]
  cases hasChildren with
  | false =>
    rw [hleaf rfl]
    exact String.append_empty
  | true =>
    rw [body, if_pos rfl]
    cases hcut : cutAtField? (t.value.getD []) with
    | none =>
      rw [around_of_cutAtField?_eq_none hcut, wrapping?, if_pos rfl, hcut]
      rfl
    | some parts =>
      obtain ⟨front, rest⟩ := parts
      rw [around_of_cutAtField? hcut, wrapping?, if_pos rfl, hcut]
      dsimp only
      rw [behind_false]

mutual

theorem unformatted_eq_shown (n : Node) (hapart : holdsApart o n = false)
    (level : Nat) : unformatted o level n = shown o n := by
  match n with
  | ⟨tag, children⟩ =>
    rw [unformatted, shown]
    cases hwritten : tag.name.isSome || tag.value.isSome with
    | false =>
      rw [Bool.or_eq_false_iff, Option.isSome_eq_false_iff,
        Option.isNone_iff_eq_none] at hwritten
      rw [hwritten.1, hwritten.2]
      rfl
    | true =>
      rw [holdsApart, hwritten, Bool.true_and, Bool.or_eq_false_iff] at hapart
      have hbelow := unformattedOf_eq_shownOf children hapart.2
      have hleaf : (!children.isEmpty) = false → shownOf o children = "" := by
        intro hempty
        obtain rfl : children = [] := by simpa using hempty
        rfl
      rw [hbelow, hapart.2, content_eq_body hapart.1 hleaf]
      rfl

/-- Where nothing is on lines of its own, unformatted markup is the plain
serialization. -/
theorem unformattedOf_eq_shownOf (ns : List Node)
    (hapart : anyHoldsApart o ns = false) (level : Nat) :
    unformattedOf o level ns = shownOf o ns := by
  match ns with
  | [] => rfl
  | n :: ns =>
    rw [anyHoldsApart, Bool.or_eq_false_iff] at hapart
    rw [unformattedOf, shownOf, unformatted_eq_shown n hapart.1,
      unformattedOf_eq_shownOf ns hapart.2]

end

end Plain

/-- Without formatting, tagged markup is tags, attributes, values and children
one behind the other, where only what is apart is on lines of its own.  So there
is a line break just if something is apart, and otherwise the markup is the
plain serialization. -/
theorem render_unformatted {c : Config} (tagged : c.dialect.isOutline = false)
    (h : Unformatted c) {nodes : List Node}
    (hlines : ∀ t ∈ Node.preorders nodes, isOneLine t = true) :
    Node.render c nodes = Plain.unformattedOf c.options 0 nodes ∧
      Text.hasBreak (Node.render c nodes) = anyHoldsApart c.options nodes ∧
      (anyHoldsApart c.options nodes = false →
        Node.render c nodes = Plain.shownOf c.options nodes) := by
  have htop : ({} : Page).out.level + indentStep c.options none = (0 : Nat) :=
    rfl
  have hreaches := Tagged.reaches_writeNodes h nodes hlines none [] {} htop
  have hrender : Node.render c nodes =
      Plain.unformattedOf c.options 0 nodes := by
    rw [render_of_isOutline_eq_false tagged, page, hreaches.text]
    exact String.empty_append
  rw [hrender]
  exact ⟨rfl, hreaches.breaks, fun hapart =>
    Plain.unformattedOf_eq_shownOf nodes hapart 0⟩

namespace UnformattedWitness

def config : Config := { snippets := {}, options := { format := false } }

/-- The tree of `ul>(li.a{x}+li>{y}+b)`. -/
def list : List Node :=
  [⟨{ name := some "ul" },
    [⟨{ name := some "li", value := some [.text "x"],
        attributes := some [{ name := some "class", value := some [.text
          "a"] }] }, []⟩, ⟨{ name := some "li" },
        [⟨{ value := some [.text "y"] }, []⟩, ⟨{ name := some "b" }, []⟩]⟩]⟩]

/-- The tree of `div>{a ${1} b}>p{<i>x</i>}+p{<div>y</div>}`. -/
def around : List Node :=
  [⟨{ name := some "div" },
    [⟨{ value := some [.text "a ", .field 1 "", .text " b"] },
      [⟨{ name := some "p", value := some [.text "<i>x</i>"] }, []⟩,
        ⟨{ name := some "p", value := some [.text "<div>y</div>"] }, []⟩]⟩]⟩]

theorem unformatted_config : Unformatted config :=
  ⟨rfl, rfl, rfl, rfl, by decide⟩

theorem render_unformatted_pages :
    (config.dialect.isOutline = false ∧ Unformatted config ∧
      (∀ t ∈ Node.preorders list, isOneLine t = true) ∧
      ∀ t ∈ Node.preorders around, isOneLine t = true) ∧
    Node.render config list =
      "<ul><li class=\"a\">x</li><li>y<b></b></li></ul>" ∧
    Node.render config list = Plain.shownOf config.options list ∧
    Node.render config around =
      "<div>a <p><i>x</i></p><p>\n\t\t<div>y</div>\n\t</p>b</div>" ∧
    Node.render config around =
      Plain.unformattedOf config.options 0 around := by
  have hlist : ∀ t ∈ Node.preorders list, isOneLine t = true := by decide
  have haround : ∀ t ∈ Node.preorders around, isOneLine t = true := by decide
  exact ⟨⟨rfl, unformatted_config, hlist, haround⟩, by decide +kernel,
    (render_unformatted rfl unformatted_config hlist).2.2 (by decide +kernel),
    by decide +kernel, (render_unformatted rfl unformatted_config haround).1⟩

/-- Component markup in which classes get a name over two lines. -/
def renamed : Config :=
  { dialect := .jsx, snippets := {}
    options := { format := false, jsx := true,
                 jsxAttributeNames := [("class", "a\nb")] } }

/-- The tree of `body`. -/
def forced : List Node := [⟨{ name := some "body" }, []⟩]

/-- The tree of `p{<div>x</div>}`. -/
def block : List Node :=
  [⟨{ name := some "p", value := some [.text "<div>x</div>"] }, []⟩]

/-- The tree of `div>p.x`. -/
def classed : List Node :=
  [⟨{ name := some "div" },
    [⟨{ name := some "p", attributes :=
        some [{ name := some "class", value := some [.text "x"] }] }, []⟩]⟩]

/-- An element below a node without name and value. -/
def silent : List Node := [⟨{}, [⟨{ name := some "p" }, []⟩]⟩]

theorem tree_forced : Expansion.tree config "body" = .ok ⟨forced, [], 0⟩ := by
  rw [config, forced]
  cbv

theorem tree_block :
    Expansion.tree config "p\x7b<div>x</div>\x7d" = .ok ⟨block, [], 0⟩ := by
  rw [config, block]
  cbv

theorem tree_classed :
    Expansion.tree renamed "div>p.x" = .ok ⟨classed, [], 0⟩ := by
  rw [renamed, classed]
  cbv

/-- Lines begin without formatting in an element listed for them, around a block
element in a value, and in the name that stands for another one; and nothing is
written below a node that is not. -/
theorem lines_begin_unformatted :
    (Expansion.tree config "body" = .ok ⟨forced, [], 0⟩ ∧
      (expand config "body").map (·.result) = .ok "<body>\n\t\n</body>" ∧
      Plain.forest config.options forced = "<body></body>") ∧
    (Expansion.tree config "p\x7b<div>x</div>\x7d" = .ok ⟨block, [], 0⟩ ∧
      (expand config "p\x7b<div>x</div>\x7d").map (·.result) =
        .ok "<p>\n\t<div>x</div>\n</p>" ∧
      Plain.forest config.options block = "<p><div>x</div></p>") ∧
    (Expansion.tree renamed "div>p.x" = .ok ⟨classed, [], 0⟩ ∧
      (expand renamed "div>p.x").map (·.result) =
        .ok "<div><p a\n\tb=\"x\"></p></div>" ∧
      Plain.forest renamed.options classed = "<div><p a\nb=\"x\"></p></div>") ∧
    Node.render config silent = "" ∧ Plain.forest config.options silent =
      "<p></p>" ∧
    ∀ t ∈ Node.preorders (forced ++ block ++ classed ++ silent),
    isOneLine t = true := by
  have hforced : Node.render config forced = "<body>\n\t\n</body>" := by
    decide +kernel
  have hblock : Node.render config block = "<p>\n\t<div>x</div>\n</p>" := by
    decide +kernel
  have hclassed : Node.render renamed classed =
      "<div><p a\n\tb=\"x\"></p></div>" := by
    decide +kernel
  refine ⟨⟨tree_forced, ?_, by decide +kernel⟩,
    ⟨tree_block, ?_, by decide +kernel⟩, ⟨tree_classed, ?_, by decide +kernel⟩,
    by decide +kernel, by decide +kernel, by decide⟩
  · rw [expand, tree_forced]
    exact congrArg Except.ok hforced
  · rw [expand, tree_block]
    exact congrArg Except.ok hblock
  · rw [expand, tree_classed]
    exact congrArg Except.ok hclassed

end UnformattedWitness

end Scaffold.Markup

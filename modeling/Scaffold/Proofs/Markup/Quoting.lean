import Mathlib
import Scaffold.Proofs.Markup.Unformatted
/-!
Attribute values between quotes.  Tagged markup carries, in document order,
every attribute that is written: its name, an equals sign and its value between
the configured quotes.  Nothing in a value is escaped.  So what stands in front
of the next quote is the value just if there is no quote in it, and a value of
one line is written as it is.  Main statement: `render_attributes`.
-/
namespace Scaffold.Markup

open Tagged

def laidPieces (c : Config) (level : Nat) (ps : List Piece) : String :=
  String.join (ps.map fun
    | .text s => laid c level s
    | .field _ name => name)

/-- An attribute as it is laid out at a level, behind a space; nothing if it has
no name. -/
def attributeText (c : Config) (level : Nat) (a : Attribute) : String :=
  match a.name with
  | none => ""
  | some name =>
    let f := form c.options a name
    match f.value with
    | some value =>
      laid c level (" " ++ f.name) ++ "=" ++ f.quotes.1 ++
        laidPieces c level value ++ f.quotes.2
    | none =>
      if c.options.selfClosing = .html then laid c level (" " ++ f.name)
      else laid c level (" " ++ f.name) ++ "=" ++ f.quotes.1 ++ f.quotes.2

/-- A text in which attributes stand one behind the other, each laid out at some
level. -/
inductive Carries (c : Config) : List Attribute → String → Prop
  | nil (s : String) : Carries c [] s
  | cons {attributes : List Attribute}
    {rest : String} (before : String) (level : Nat)
      (a : Attribute) (behind : Carries c attributes rest) :
      Carries c (a :: attributes) (before ++ attributeText c level a ++ rest)

def writtenAttributes (t : Tag) : List Attribute :=
  (t.attributeList.filter isWritten).filter (·.name.isSome)

mutual

/-- The attributes that are written of a node and of the nodes below it, in
document order: nothing is written of a node without name and value. -/
def markupAttributes : Node → List Attribute
  | ⟨tag, children⟩ =>
    match tag.name with
    | some _ => writtenAttributes tag ++ markupAttributesOf children
    | none => if tag.value.isSome then markupAttributesOf children else []

def markupAttributesOf : List Node → List Attribute
  | [] => []
  | n :: ns => markupAttributes n ++ markupAttributesOf ns

end

/-- Whether a value becomes a member of an object in component markup. -/
def becomesMember (o : Options) (a : Attribute) (name : String) : Bool :=
  match renamed? o.jsxValuePrefix name a.multiple, a.value with
  | some _, some [.text _] => true
  | _, _ => false

/-- Whether an attribute has a value between quotes: it is no expression, and
component markup makes none of it. -/
def isQuoted (o : Options) (a : Attribute) (name : String) : Bool :=
  a.kind != .expression && !(o.jsx && (a.multiple || becomesMember o a name))

/-- The text in front of the next quote. -/
def readToQuote (mark : Char) (s : String) : String :=
  String.ofList (s.toList.takeWhile (· != mark))

section Texts

variable {c : Config}

theorem laid_of_line (hooks : c.hooks = {}) (level : Nat) {s : String}
    (hline : Text.hasBreak s = false) : laid c level s = s := by
  rw [laid, Text.lines_of_hasBreak_eq_false hline, hooks]
  rfl

/-- A value of one line is written as it is. -/
theorem laidPieces_of_line (hooks : c.hooks = {}) (level : Nat)
    {ps : List Piece} (hline : areOneLine ps = true) :
    laidPieces c level ps = Piece.plainText ps := by
  rw [laidPieces, Piece.plainText]
  congr 1
  refine List.map_congr_left fun x hx => ?_
  cases x with
  | text s =>
    exact laid_of_line hooks level (areOneLine_iff.1 hline (.text s) hx)
  | field index name => rfl

/-- Reading to the next quote returns what stands between two quotes just if
there is none in it. -/
theorem readToQuote_iff (mark : Char) (s rest : String) :
    readToQuote mark (s ++ mark.toString ++ rest) = s ↔ mark ∉ s.toList := by
  have hlist : (s ++ mark.toString ++ rest).toList =
      s.toList ++ mark :: rest.toList := by
    simp [Char.toString]
  rw [readToQuote, hlist, ← String.toList_inj, String.toList_ofList]
  constructor
  · intro hread hmem
    rw [← hread] at hmem
    simpa using List.all_eq_true.1 List.all_takeWhile mark hmem
  · intro hmark
    have hall : ∀ ch ∈ s.toList, (ch != mark) = true := by
      intro ch hch
      rw [bne_iff_ne]
      rintro rfl
      exact hmark hch
    rw [List.takeWhile_append_of_pos hall, List.takeWhile_cons,
      bne_self_eq_false]
    exact List.append_nil _

/-- A quoted attribute keeps its value, and what stands around it is
configured. -/
theorem form_of_isQuoted {o : Options} {a : Attribute} {name : String}
    (hquoted : isQuoted o a name = true) :
    (form o a name).quotes =
      (o.attributeQuotes.mark.toString, o.attributeQuotes.mark.toString) ∧
      ∀ value, a.value = some value → (form o a name).value = some value := by
  rw [isQuoted, Bool.and_eq_true, bne_iff_ne, Bool.not_eq_true',
    Bool.and_eq_false_imp] at hquoted
  obtain ⟨hkind, hrewritten⟩ := hquoted
  have hquotes : quotes o a =
      (o.attributeQuotes.mark.toString, o.attributeQuotes.mark.toString) :=
        if_neg hkind
  have hbase : (baseForm o a name).quotes = quotes o a ∧
      (baseForm o a name).value = a.value := by
    rw [baseForm]
    cases hjsx : o.jsx with
    | false => exact ⟨rfl, rfl⟩
    | true =>
      have hneither := hrewritten hjsx
      rw [Bool.or_eq_false_iff, becomesMember] at hneither
      obtain ⟨hmultiple, hmember⟩ := hneither
      simp only [Bool.not_true, Bool.false_eq_true, if_false]
      split
      · next hobject hvalue =>
        rw [hobject, hvalue] at hmember
        cases hmember
      · rw [hmultiple]
        exact ⟨rfl, rfl⟩
  refine ⟨hbase.1.trans hquotes, fun value hvalue => ?_⟩
  rw [form]
  dsimp only
  rw [hbase.2, hvalue]
  rfl

end Texts

namespace Carries

variable {c : Config} {attributes others : List Attribute} {s t : String}

/-- A text may stand in front. -/
theorem behind (s : String) (h : Carries c attributes t) :
    Carries c attributes (s ++ t) := by
  cases h with
  | nil => exact .nil _
  | cons before level a rest =>
    rw [← String.append_assoc, ← String.append_assoc]
    exact .cons (s ++ before) level a rest

theorem append (h : Carries c attributes s) (h' : Carries c others t) :
    Carries c (attributes ++ others) (s ++ t) := by
  induction h with
  | nil s => exact h'.behind s
  | cons before level a _ ih =>
    rw [String.append_assoc]
    exact .cons before level a ih

end Carries

namespace Page

/-- What is written from one page to another carries attributes. -/
def Carries (c : Config) (p q : Page) (attributes : List Attribute) : Prop :=
  ∃ s, q.out.text = p.out.text ++ s ∧ Markup.Carries c attributes s

variable {c : Config} {p q r : Page} {attributes others : List Attribute}

namespace Carries

theorem of_extends (h : p.Extends q) : p.Carries c q [] := by
  obtain ⟨s, hs⟩ := h
  exact ⟨s, hs.text, .nil s⟩

theorem trans (h : p.Carries c q attributes) (h' : q.Carries c r others) :
    p.Carries c r (attributes ++ others) := by
  obtain ⟨s, hs, hcarries⟩ := h
  obtain ⟨t, ht, hcarries'⟩ := h'
  exact ⟨s ++ t, by rw [ht, hs, String.append_assoc], hcarries.append hcarries'⟩

/-- Behind something without attributes. -/
theorem behind (h : p.Extends q) (h' : q.Carries c r attributes) :
    p.Carries c r attributes :=
  (of_extends h).trans h'

/-- In front of something without attributes. -/
theorem inFront (h : p.Carries c q attributes) (h' : q.Extends r) :
    p.Carries c r attributes := by
  have hboth := h.trans (of_extends (c := c) h')
  rwa [List.append_nil] at hboth

/-- The level does not matter for what is carried. -/
theorem unshift {n : Int} (h : (p.shift n).Carries c q attributes) :
    p.Carries c (q.shift (-n)) attributes := h

end Carries

theorem extends_onOwnLines (wanted : Bool) {write : Page → Page}
    (hwrite : ∀ p : Page, p.Extends (write p)) (p : Page) :
    p.Extends (p.onOwnLines c wanted write) := by
  rw [onOwnLines]
  split
  · obtain ⟨s, hs⟩ :=
      (extends_newline c (p.shift 1) (p.shift 1).out.level).trans (hwrite _)
    exact Extends.trans ⟨s, hs.unshift⟩ (extends_newline c _ _)
  · exact hwrite p

/-- A value is written as it is laid out at the level of the page. -/
theorem adds_laidPieces (hooks : c.hooks = {}) (p : Page) (ps : List Piece) :
    p.Adds (p.pieces c ps) (laidPieces c p.out.level.toNat ps) := by
  refine Adds.pieces_of_foldl ?_
  induction ps generalizing p with
  | nil => exact .refl p
  | cons x ps ih =>
    have hfirst :
        p.Adds (p.piece c x) (laidPieces c p.out.level.toNat [x]) := by
      cases x with
      | text s =>
        have hlaid : laidPieces c p.out.level.toNat [.text s] =
            laid c p.out.level.toNat s := by
          simp [laidPieces]
        rw [hlaid]
        exact adds_laid_toNat c p s
      | field index name =>
        have hname : c.hooks.field (p.fieldBase + index) name = name := by
          rw [hooks]
        exact ⟨by simp [piece, Output.field, Output.raw, hname,
          laidPieces], rfl⟩
    have hboth := hfirst.trans (ih (p.piece c x))
    rwa [hfirst.level, laidPieces, laidPieces, ← String.join_append,
      ← List.map_append, List.singleton_append, ← laidPieces] at hboth

end Page

namespace Tagged

variable {c : Config}

/-- An attribute is written as it is laid out at the level of the page. -/
theorem adds_writeAttribute (hooks : c.hooks = {}) (p : Page) (a : Attribute) :
    p.Adds (writeAttribute c p a) (attributeText c p.out.level.toNat a) := by
  have plain : ∀ s, c.hooks.text s = s := by simp [hooks]
  rw [writeAttribute, attributeText]
  cases a.name with
  | none => exact .refl p
  | some name =>
    have hmarks := hasBreak_marks (quotes_form_mem_markPairs c.options a name)
    dsimp only
    generalize form c.options a name = f at *
    have hname := Page.adds_laid_toNat c p (" " ++ f.name)
    cases f.value with
    | some value =>
      have hopen := hname.trans (Page.adds_string plain _ hmarks.1)
      have hvalue := Page.adds_laidPieces hooks
        ((p.string c (" " ++ f.name)).string c ("=" ++ f.quotes.1)) value
      rw [hopen.level] at hvalue
      have hall :=
        (hopen.trans hvalue).trans (Page.adds_string plain _ hmarks.2)
      simpa only [String.append_assoc] using hall
    | none =>
      dsimp only
      split
      · exact hname
      · have hboth : Text.hasBreak ("=" ++ f.quotes.1 ++ f.quotes.2) =
            false := by
          rw [Text.hasBreak_append, hmarks.1, hmarks.2]
          rfl
        simpa only [String.append_assoc]
          using hname.trans (Page.adds_string plain _ hboth)

theorem carries_foldl_writeAttribute (hooks : c.hooks = {})
    (attributes : List Attribute) (p : Page) :
    p.Carries c (attributes.foldl (writeAttribute c) p)
      (attributes.filter (·.name.isSome)) := by
  induction attributes generalizing p with
  | nil => exact .of_extends (.refl p)
  | cons a attributes ih =>
    rw [List.foldl_cons, List.filter_cons]
    cases hname : a.name with
    | none =>
      have hnothing : writeAttribute c p a = p := by rw [writeAttribute, hname]
      rw [hnothing]
      exact ih p
    | some name =>
      have hfirst : p.Carries c (writeAttribute c p a) [a] := by
        have hcarries := Carries.cons (c := c) "" p.out.level.toNat a (.nil "")
        rw [String.empty_append, String.append_empty] at hcarries
        exact ⟨_, (adds_writeAttribute hooks p a).text, hcarries⟩
      exact hfirst.trans (ih _)

theorem extends_writeValue (value : List Piece) (p : Page) :
    p.Extends (writeValue c value p) :=
  Page.extends_onOwnLines _ (Page.extends_pieces c · value) p

theorem extends_writeCaret (name : String) (p : Page) :
    p.Extends (writeCaret c name p) :=
  Page.extends_onOwnLines _ (Page.extends_pieces c · caret) p

theorem extends_writeBehind (broke : Bool) (ps : List Piece) (p : Page) :
    p.Extends (writeBehind c broke ps p) := by
  rw [writeBehind.eq_def]
  split
  · have htext := Page.extends_string c p
    dsimp only
    split
    · exact htext _
    · exact (htext _).trans (Page.extends_pieces c _ _)
  · exact .refl p
  · exact Page.extends_pieces c p ps

theorem extends_finish (place : Place) (begins : Bool) (p : Page) :
    p.Extends (finish c place begins p) := by
  rw [finish]
  split
  · exact Page.extends_newline c p _
  · exact .refl p

section Content

variable {t : Tag} {hasChildren : Bool} {below : Page → Page}
    {attributes : List Attribute}

/-- Nodes in the midst of a value carry what they carry elsewhere. -/
theorem carries_wrapAround?
    (hbelow : ∀ p : Page, p.Carries c (below p) attributes) {p q : Page}
    (hwrap : wrapAround? c t hasChildren below p = some q) :
    p.Carries c q attributes := by
  rw [wrapAround?_eq, Option.map_eq_some_iff] at hwrap
  obtain ⟨parts, -, rfl⟩ := hwrap
  exact (Page.Carries.behind (Page.extends_pieces c p parts.1)
    (hbelow _)).inFront (extends_writeBehind _ _ _)

/-- A named element carries its attributes, and then what the nodes below it
carry. -/
theorem carries_writeElement (hooks : c.hooks = {}) (name : String)
    (hbelow : ∀ p : Page, p.Carries c (below p) attributes)
    (hleaf : hasChildren = false → attributes = []) (p : Page) :
    p.Carries c (writeElement c t name hasChildren below p)
      (writtenAttributes t ++ attributes) := by
  have hopening := Page.Carries.behind
    (Page.extends_string c p ("<" ++ c.options.tagCase.apply name))
    (carries_foldl_writeAttribute hooks (t.attributeList.filter isWritten) _)
  rw [writeElement]
  dsimp only
  split
  · next hown =>
    have hnone : hasChildren = false := by simp_all
    rw [hleaf hnone, List.append_nil]
    exact hopening.inFront (Page.extends_string c _ _)
  · have hinside := hopening.inFront (Page.extends_string c _ ">")
    generalize Page.string c _ ">" = inside at hinside ⊢
    refine Page.Carries.inFront ?_ (Page.extends_string c _ _)
    cases hwrap : wrapAround? c t hasChildren below inside with
    | some q => exact hinside.trans (carries_wrapAround? hbelow hwrap)
    | none =>
      cases t.value with
      | some value =>
        exact hinside.trans
          (.behind (extends_writeValue value inside) (hbelow _))
      | none =>
        cases hasChildren with
        | true => exact hinside.trans (hbelow inside)
        | false =>
          rw [hleaf rfl, List.append_nil]
          exact hinside.inFront (extends_writeCaret name inside)

/-- A nameless node carries what the nodes below it carry, if it has a value. -/
theorem carries_writeText
    (hbelow : ∀ p : Page, p.Carries c (below p) attributes) (p : Page) :
    p.Carries c (writeText c t hasChildren below p)
      (if t.value.isSome then attributes else []) := by
  rw [writeText]
  cases hvalue : t.value with
  | some value =>
    cases hwrap : wrapAround? c t hasChildren below p with
    | some q => exact carries_wrapAround? hbelow hwrap
    | none => exact .behind (Page.extends_pieces c p value) (hbelow _)
  | none =>
    have hwrap : wrapAround? c t hasChildren below p = none := by
      rw [wrapAround?_eq, wrapping?, hvalue]
      cases hasChildren <;> rfl
    rw [hwrap]
    exact .of_extends (.refl p)

end Content

mutual

/-- One node: its lines carry no attributes. -/
theorem carries_writeNode (hooks : c.hooks = {}) (n : Node) (place : Place)
    (p : Page) : p.Carries c (writeNode c place n p) (markupAttributes n) := by
  match n with
  | ⟨tag, children⟩ =>
    have hbelow := carries_writeNodes hooks children (some tag) []
    rw [writeNode, markupAttributes]
    generalize (beginsLine? c.options place tag (!children.isEmpty)).getD
      _ = begins
    have hbegin : ∀ q : Page,
        q.Extends (if begins then q.freshLine c else q) := by
      intro q
      split
      · exact Page.extends_newline c q _
      · exact .refl q
    refine Page.Carries.unshift
      (.inFront (.behind (hbegin _) ?_) (extends_finish place begins _))
    cases tag.name with
    | some name =>
      have hleaf : (!children.isEmpty) = false →
          markupAttributesOf children = [] := by
        intro hempty
        obtain rfl : children = [] := by simpa using hempty
        rfl
      exact carries_writeElement hooks name hbelow hleaf _
    | none => exact carries_writeText hbelow _

theorem carries_writeNodes (hooks : c.hooks = {}) (ns : List Node)
    (parent : Option Tag) (before : List Tag) (p : Page) :
    p.Carries c (writeNodes c parent before ns p) (markupAttributesOf ns) := by
  match ns with
  | [] => exact .of_extends (.refl p)
  | n :: ns =>
    rw [writeNodes, markupAttributesOf]
    exact (carries_writeNode hooks n _ p).trans
      (carries_writeNodes hooks ns parent _ _)

end

end Tagged

/-- Tagged markup carries the attributes that are written, in document order.  A
quoted one is its name, an equals sign and its value, as they are laid out,
between the configured quotes; reading to the next quote returns the value as it
is laid out just if no quote is in it, and a value of one line is laid out as it
is. -/
theorem render_attributes {c : Config} (tagged : c.dialect.isOutline = false)
    (hooks : c.hooks = {}) (nodes : List Node) :
    Carries c (markupAttributesOf nodes) (Node.render c nodes) ∧
      ∀ a ∈ markupAttributesOf nodes, ∀ name ∈ a.name,
        isQuoted c.options a name = true →
        ∀ value ∈ (form c.options a name).value, ∀ level,
          let mark := c.options.attributeQuotes.mark
          let text := laidPieces c level value
          attributeText c level a =
              laid c level (" " ++ (form c.options a name).name) ++ "=" ++
                mark.toString ++ text ++ mark.toString ∧
            (∀ rest, readToQuote mark (text ++ mark.toString ++ rest) = text ↔
              mark ∉ text.toList) ∧
            (areOneLine value = true → text = Piece.plainText value) ∧
            ∀ own ∈ a.value, own = value := by
  constructor
  · obtain ⟨text, htext, hcarries⟩ := carries_writeNodes hooks nodes none [] {}
    have hrender : Node.render c nodes = text := by
      rw [render_of_isOutline_eq_false tagged]
      exact htext.trans String.empty_append
    rwa [hrender]
  · intro a _ name hname hquoted value hvalue level mark text
    obtain ⟨hquotes, hown⟩ := form_of_isQuoted hquoted
    refine ⟨?_, readToQuote_iff mark text, laidPieces_of_line hooks level, ?_⟩
    · rw [attributeText, Option.mem_def.1 hname]
      dsimp only
      rw [Option.mem_def.1 hvalue, hquotes]
    · intro own hmem
      have hsame := hown own hmem
      rw [Option.mem_def.1 hvalue] at hsame
      exact (Option.some.inj hsame).symm

namespace QuotingWitness

def config : Config := { snippets := {} }

/-- No snippets, and a quote in the text that the markup is filled with. -/
def filling : Config := { snippets := {}, text := some (.single "a\"b") }

def paragraph (a : Attribute) : Node :=
  ⟨{ name := some "p", attributes := some [a] }, []⟩

def nested (a : Attribute) : Node := ⟨{ name := some "div" }, [paragraph a]⟩

/-- A title with the other quote in it. -/
def legible : Attribute :=
  { name := some "title", value := some [.text "it's ", .field 1 "late"],
    kind := .doubleQuoted }

theorem render_attributes_legible :
    (config.dialect.isOutline = false ∧ config.hooks = {} ∧
      isQuoted config.options legible "title" = true) ∧
    Node.render config [nested legible] =
      "<div>\n\t<p title=\"it's late\"></p>\n</div>" ∧
    Carries config [legible] (Node.render config [nested legible]) ∧
    attributeText config 1 legible =
      laid config 1 " title" ++ "=" ++ "\"" ++
        laidPieces config 1 [.text "it's ", .field 1 "late"] ++ "\"" ∧
    readToQuote '"' (laidPieces config 1 [.text "it's ", .field 1 "late"] ++
      "\"" ++ "></p>") =
      "it's late" := by
  have hquoted : isQuoted config.options legible "title" = true := by decide
  have hall := render_attributes (c := config) rfl rfl [nested legible]
  have hmem : legible ∈ markupAttributesOf [nested legible] :=
    List.mem_cons_self ..
  obtain ⟨htext, hread, hline, -⟩ :=
    hall.2 legible hmem "title" rfl hquoted
      [.text "it's ", .field 1 "late"] rfl 1
  have hlaid := hline (by decide)
  refine ⟨⟨rfl, rfl, hquoted⟩, by decide +kernel, hall.1, htext, ?_⟩
  have hvalue : Piece.plainText [.text "it's ", .field 1 "late"] =
      "it's late" := by
    decide
  exact ((hread "></p>").2 (by rw [hlaid, hvalue]; decide)).trans
    (hlaid.trans hvalue)

def quoted (kind : ValueKind) : Attribute :=
  { name := some "title", value := some [.text "a\"b"], kind }

/-- A title over two lines. -/
def broken : Attribute :=
  { name := some "title", value := some [.text "a\nb"], kind := .singleQuoted }

/-- An attribute with a name over two lines. -/
def named : Attribute := { name := some "a\nb", value := some [.text "x"] }

theorem tree_quoted :
    Expansion.tree config "p[title='a\"b']" =
      .ok ⟨[paragraph (quoted .singleQuoted)], [], 0⟩ := by
  rw [config, paragraph, quoted]
  cbv

theorem tree_filled :
    Expansion.tree filling "p[title=$#]" =
      .ok ⟨[paragraph (quoted .raw)], [], 0⟩ := by
  rw [filling, paragraph, quoted]
  cbv

theorem tree_broken :
    Expansion.tree config "div>p[title='a\nb']" =
      .ok ⟨[nested broken], [], 0⟩ := by
  rw [config, nested, paragraph, broken]
  cbv

theorem tree_named :
    Expansion.tree config "div>p[a\\\nb=x]" = .ok ⟨[nested named], [], 0⟩ := by
  rw [config, nested, paragraph, named]
  cbv

/-- A value with a quote in it is cut off there, whether it is written in the
abbreviation or comes with the text that the markup is filled with; a value over
two lines and a name over two lines get the indentation of the markup. -/
theorem values_misread :
    ((expand config "p[title='a\"b']").map (·.result) =
      .ok "<p title=\"a\"b\"></p>" ∧
      (expand filling "p[title=$#]").map (·.result) =
        .ok "<p title=\"a\"b\"></p>" ∧
      readToQuote '"' "a\"b\"></p>" ≠ "a\"b") ∧
    ((expand config "div>p[title='a\nb']").map (·.result) =
        .ok "<div>\n\t<p title=\"a\n\tb\"></p>\n</div>" ∧
      readToQuote '"' "a\n\tb\"></p>\n</div>" ≠ "a\nb") ∧
    (expand config "div>p[a\\\nb=x]").map (·.result) =
      .ok "<div>\n\t<p a\n\tb=\"x\"></p>\n</div>" ∧
    isQuoted config.options (quoted .singleQuoted) "title" = true ∧
    isQuoted filling.options (quoted .raw) "title" = true ∧
    isQuoted config.options broken "title" = true ∧
    isQuoted config.options named "a\nb" = true ∧
    (quoted .singleQuoted).valueText = "a\"b" ∧
    (quoted .raw).valueText = "a\"b" ∧
    broken.valueText = "a\nb" := by
  have hquoted : Node.render config [paragraph (quoted .singleQuoted)] =
      "<p title=\"a\"b\"></p>" := by decide +kernel
  have hfilled : Node.render filling [paragraph (quoted .raw)] =
      "<p title=\"a\"b\"></p>" := by
    decide +kernel
  have hbroken : Node.render config [nested broken] =
      "<div>\n\t<p title=\"a\n\tb\"></p>\n</div>" := by decide +kernel
  have hnamed : Node.render config [nested named] =
      "<div>\n\t<p a\n\tb=\"x\"></p>\n</div>" := by decide +kernel
  refine ⟨⟨?_, ?_, by decide⟩, ⟨?_, by decide⟩, ?_, by decide, by decide,
    by decide, by decide, by decide, by decide, by decide⟩
  · rw [expand, tree_quoted]
    exact congrArg Except.ok hquoted
  · rw [expand, tree_filled]
    exact congrArg Except.ok hfilled
  · rw [expand, tree_broken]
    exact congrArg Except.ok hbroken
  · rw [expand, tree_named]
    exact congrArg Except.ok hnamed

end QuotingWitness

end Scaffold.Markup

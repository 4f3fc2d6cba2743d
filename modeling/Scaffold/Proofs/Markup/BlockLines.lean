import Mathlib
import Scaffold.Expansion
import Scaffold.Proofs.Markup.Relaying
import Scaffold.Proofs.Markup.Serializing
import Scaffold.Proofs.Node.Preorder
/-!
The lines of block elements.  In formatted markup the opening tag of every block
element begins a line, with one unit of indentation for each element around it
that is not skipped, and its closing tag ends the same line if the element has
no children and begins a line otherwise.  That line has the indentation of the
opening tag, but for skipped elements, which lose one unit there.  Main
statement: `render_blocks`.
-/
namespace Scaffold.Markup

/-- A line with the units of indentation in front of it. -/
structure Line where
  level : Nat
  text : String
  deriving DecidableEq, Repr

def Line.shown (o : Options) (l : Line) : String :=
  String.join (List.replicate l.level o.indent) ++ l.text

def broken (o : Options) (lines : List Line) : String :=
  String.join (lines.map fun l => lineBreak o l.level ++ l.text)

/-- Lines, each but the first behind the line break it begins with. -/
def headless (o : Options) : List Line → String
  | [] => ""
  | l :: ls => l.text ++ broken o ls

section Lines

variable {o : Options}

theorem broken_append (ls ms : List Line) :
    broken o (ls ++ ms) = broken o ls ++ broken o ms := by
  rw [broken, List.map_append, String.join_append]
  rfl

theorem broken_cons (l : Line) (ls : List Line) :
    broken o (l :: ls) = lineBreak o l.level ++ headless o (l :: ls) := by
  rw [broken, List.map_cons, String.join_cons, headless, String.append_assoc]
  rfl

theorem headless_append {ls : List Line} (hne : ls ≠ []) (ms : List Line) :
    headless o (ls ++ ms) = headless o ls ++ broken o ms := by
  obtain ⟨l, rest, rfl⟩ := List.exists_cons_of_ne_nil hne
  rw [List.cons_append, headless, headless, broken_append, String.append_assoc]

/-- Where a line break is a line feed alone, lines are joined by line feeds. -/
theorem join_shown (newline : o.newline = "\n") (baseIndent : o.baseIndent = "")
    (l : Line) (ls : List Line) :
    Text.join "\n" ((l :: ls).map (Line.shown o)) = String.join
      (List.replicate l.level o.indent) ++ headless o (l :: ls) := by
  induction ls generalizing l with
  | nil => simp [Text.join, Line.shown, headless, broken]
  | cons m ms ih =>
    have hbreak : lineBreak o m.level =
        "\n" ++ String.join (List.replicate m.level o.indent) := by
      rw [lineBreak, newline, baseIndent, String.append_empty]
    have hnext : headless o (l :: m :: ms) =
        l.text ++ (lineBreak o m.level ++ headless o (m :: ms)) := by
      rw [← broken_cons]
      rfl
    calc Text.join "\n" ((l :: m :: ms).map (Line.shown o))
        = l.shown o ++ "\n" ++
          Text.join "\n" ((m :: ms).map (Line.shown o)) := rfl
      _ = _ := by
        rw [ih m, hnext, hbreak, Line.shown]; simp [String.append_assoc]

end Lines

/-- Whether what is below an element goes without further indentation. -/
def isSkipped (o : Options) (t : Tag) : Bool :=
  (t.name.map (Options.lists o.formatSkip)).getD false

/-- The level of what is below an element. -/
def innerLevel (o : Options) (t : Tag) (level : Nat) : Nat :=
  if isSkipped o t then level else level + 1

/-- The level of an element's closing tag on a line of its own. -/
def closingLevel (o : Options) (t : Tag) (level : Nat) : Nat :=
  if isSkipped o t then level - 1 else level

def writtenName (o : Options) (t : Tag) : String :=
  o.tagCase.apply (t.name.getD "")

/-- The opening tag of an element without attributes. -/
def openingTag (c : Config) (level : Nat) (t : Tag) : String :=
  laid c level ("<" ++ writtenName c.options t) ++ laid c level ">"

def closingTag (c : Config) (level : Nat) (t : Tag) : String :=
  laid c level ("</" ++ writtenName c.options t ++ ">")

mutual

/-- The number of elements without children. -/
def leaves : Node → Nat
  | ⟨_, children⟩ => if children.isEmpty then 1 else leavesOf children

def leavesOf : List Node → Nat
  | [] => 0
  | n :: ns => leaves n + leavesOf ns

end

mutual

/-- The lines of an element at a level, with some elements without children in
front of it.  What closes an element that has children stands on a line of a
given level. -/
def blockLines (c : Config) (closing : Tag → Nat → Nat) (level front : Nat) :
    Node → List Line
  | ⟨tag, children⟩ =>
    if children.isEmpty then
      [⟨level, openingTag c level tag ++ c.hooks.field front "" ++
        closingTag c level tag⟩]
    else
      ⟨level, openingTag c level tag⟩ ::
        (blockLinesOf c closing (innerLevel c.options tag level) front
          children ++ [⟨closing tag level, closingTag c level tag⟩])

def blockLinesOf (c : Config) (closing : Tag → Nat → Nat) (level front : Nat) :
    List Node → List Line
  | [] => []
  | n :: ns =>
    blockLines c closing level front n ++
      blockLinesOf c closing level (front + leaves n) ns

end

/-- A block element without attributes and value, whose content need not have
lines of its own. -/
def isBlock (o : Options) (t : Tag) : Bool :=
  match t.name with
  | none => false
  | some name =>
    !o.isInline name && !Options.lists o.formatForce name &&
      t.attributeList.isEmpty && t.value.isNone && !t.selfClosing

mutual

/-- No skipped element with children stands further in than at the top. -/
def isAligned (o : Options) (level : Nat) : Node → Bool
  | ⟨tag, children⟩ =>
    (!isSkipped o tag || children.isEmpty || level == 0) &&
      areAligned o (innerLevel o tag level) children

def areAligned (o : Options) (level : Nat) : List Node → Bool
  | [] => true
  | n :: ns => isAligned o level n && areAligned o level ns

end

namespace Tagged

section Writing

variable {c : Config}

/-- What an element holds that has neither attributes nor a value. -/
theorem writeElement_of_isBlock {t : Tag} {name : String}
    (hname : t.name = some name) (hblock : isBlock c.options t = true)
    (hasChildren : Bool) (below : Page → Page) (p : Page) :
    writeElement c t name hasChildren below p =
      ((if hasChildren then below else writeCaret c name)
        ((p.string c ("<" ++ writtenName c.options t)).string c ">")).string c
        ("</" ++ writtenName c.options t ++ ">") := by
  simp only [isBlock, hname, Bool.and_eq_true, Bool.not_eq_true',
    List.isEmpty_iff, Option.isNone_iff_eq_none] at hblock
  obtain ⟨⟨⟨-, hattributes⟩, hvalue⟩, hclosing⟩ := hblock
  simp only [writeElement, wrapAround?, writtenName, hname, hvalue,
    hattributes, hclosing]
  cases hasChildren <;> rfl

/-- Every block element begins a line, but for the first one at the top. -/
theorem beginsLine?_of_isBlock (format : c.options.format = true) {t : Tag}
    (hblock : isBlock c.options t = true) {place : Place}
    (hparent : isTextTag place.parent = false) (hasChildren : Bool) :
    beginsLine? c.options place t hasChildren =
      some (!(place.before.isEmpty && place.parent.isNone)) := by
  obtain ⟨name, hname⟩ : ∃ name, t.name = some name := by
    cases hname : t.name with
    | none => simp [isBlock, hname] at hblock
    | some name => exact ⟨name, rfl⟩
  have hinline : isInline c.options t = false := by
    simp only [isBlock, hname, Bool.and_eq_true, Bool.not_eq_true'] at hblock
    rw [isInline, hname]
    exact hblock.1.1.1.1
  have hloose : isLooseText place t hasChildren = false := by
    rw [isLooseText, Tag.isText, hname]
    rfl
  rw [beginsLine?, format, hparent, hloose, hinline]
  cases place.before.isEmpty && place.parent.isNone <;> rfl

/-- The place in an empty element is on the element's line, and the next one has
the next number. -/
theorem adds_writeCaret (leaf : c.options.formatLeafNode = false)
    {name : String} (hforce : Options.lists c.options.formatForce name = false)
    (p : Page) {front : Nat} (hbase : p.fieldBase = front) :
    p.Adds (writeCaret c name p) (c.hooks.field front "") ∧
      (writeCaret c name p).fieldBase = front + 1 := by
  have hline : writeCaret c name p = p.pieces c caret := by
    rw [writeCaret, leaf, hforce]
    rfl
  subst hbase
  rw [hline]
  exact ⟨Page.Adds.pieces_of_foldl ⟨rfl, rfl⟩, rfl⟩

/-- An element is its opening tag, the lines below it and the line of its
closing tag; or all of it is one line. -/
theorem adds_writeElement (leaf : c.options.formatLeafNode = false) {t : Tag}
    {name : String} (hname : t.name = some name)
    (hblock : isBlock c.options t = true) {children : List Node}
    {below : Page → Page} {level front : Nat}
    (hbelow : children ≠ [] → ∀ q : Page, q.out.level = level → q.fieldBase =
      front → q.Adds (below q) (broken c.options (blockLinesOf c (closingLevel
            c.options) (innerLevel c.options t level) front children) ++
        lineBreak c.options (closingLevel c.options t level)) ∧
      (below q).fieldBase = front + leavesOf children) (p : Page)
    (hlevel : p.out.level = level) (hbase : p.fieldBase = front) :
    p.Adds (writeElement c t name (!children.isEmpty) below p)
        (headless c.options
          (blockLines c (closingLevel c.options) level front ⟨t, children⟩)) ∧
      (writeElement c t name (!children.isEmpty) below p).fieldBase =
        front + leaves ⟨t, children⟩ := by
  have hforce : Options.lists c.options.formatForce name = false := by
    simp only [isBlock, hname, Bool.and_eq_true, Bool.not_eq_true'] at hblock
    exact hblock.1.1.1.2
  have hopen := Page.adds_laid c p ("<" ++ writtenName c.options t) hlevel
  have hend := Page.adds_laid c (p.string c ("<" ++ writtenName c.options t))
    ">" (hopen.level.trans hlevel)
  have hopening : p.Adds ((p.string c ("<" ++ writtenName c.options t)).string c
      ">") (openingTag c level t) := hopen.trans hend
  have hinside : ((p.string c ("<" ++ writtenName c.options t)).string c
      ">").fieldBase = front := hbase
  have hclosing : ∀ q : Page, q.out.level = level →
      q.Adds (q.string c ("</" ++ writtenName c.options t ++ ">"))
        (closingTag c level t) :=
    fun q hq => Page.adds_laid c q _ hq
  rw [writeElement_of_isBlock hname hblock, blockLines, leaves]
  generalize (p.string c ("<" ++ writtenName c.options t)).string c ">" = q at *
  have hq := hopening.level.trans hlevel
  cases children with
  | nil =>
    obtain ⟨hcaret, hnext⟩ := adds_writeCaret leaf hforce q hinside
    have hall :=
      (hopening.trans hcaret).trans (hclosing _ (hcaret.level.trans hq))
    exact ⟨by simpa [headless, broken] using hall, hnext⟩
  | cons n ns =>
    obtain ⟨hlines, hnext⟩ := hbelow (List.cons_ne_nil n ns) q hq hinside
    have hall :=
      (hopening.trans hlines).trans (hclosing _ (hlines.level.trans hq))
    refine ⟨?_, hnext⟩
    simpa [headless, broken_append, broken_cons, broken, String.append_assoc]
      using hall

/-- Behind the last one of the nodes below an element, the line of its closing
tag begins. -/
theorem adds_finish {place : Place} (hparent : isTextTag place.parent = false)
    (begins : Bool) (p : Page) {level : Nat} (hlevel : p.out.level = level) :
    p.Adds (finish c place begins p)
      (if begins && place.after.isEmpty && place.parent.isSome then
        lineBreak c.options (level - 1)
        else "") := by
  have hbreak := Page.adds_newline c p (p.out.level - 1)
  have hcount : (p.out.level - 1).toNat = level - 1 := by omega
  rw [hcount] at hbreak
  rw [finish, hparent]
  split
  · exact hbreak
  · exact .refl p

theorem exists_name_of_isBlock {t : Tag} (hblock : isBlock c.options t = true) :
    ∃ name, t.name = some name := by
  cases hname : t.name with
  | none => simp [isBlock, hname] at hblock
  | some name => exact ⟨name, rfl⟩

theorem isTextTag_of_isBlock {t : Tag} (hblock : isBlock c.options t = true) :
    isTextTag (some t) = false := by
  obtain ⟨name, hname⟩ := exists_name_of_isBlock hblock
  rw [isTextTag, Option.map_some, Option.getD_some, Tag.isText, hname]
  rfl

theorem indentStep_some {t : Tag} (hblock : isBlock c.options t = true)
    (level : Nat) :
    (level : Int) + indentStep c.options (some t) =
      innerLevel c.options t level := by
  have htext : t.isText = false := isTextTag_of_isBlock hblock
  have hskipped : (t.name.map (Options.lists c.options.formatSkip)).getD false =
      isSkipped c.options t := rfl
  rw [indentStep, htext, hskipped, innerLevel]
  cases isSkipped c.options t <;> simp

theorem closingLevel_eq (o : Options) (t : Tag) (level : Nat) :
    innerLevel o t level - 1 = closingLevel o t level := by
  rw [innerLevel, closingLevel]
  cases isSkipped o t <;> simp

/-- The first line of an element is at the element's level. -/
theorem broken_blockLines (closing : Tag → Nat → Nat) (level front : Nat)
    (n : Node) :
    broken c.options (blockLines c closing level front n) =
      lineBreak c.options level ++
        headless c.options (blockLines c closing level front n) := by
  obtain ⟨tag, children⟩ := n
  rw [blockLines]
  split <;> rw [broken_cons]

theorem blockLines_ne_nil (closing : Tag → Nat → Nat) (level front : Nat)
    (n : Node) : blockLines c closing level front n ≠ [] := by
  obtain ⟨tag, children⟩ := n
  rw [blockLines]
  split <;> exact List.cons_ne_nil _ _

/-- An element at its level, with the line breaks on both sides. -/
theorem adds_placed {place : Place} (hparent : isTextTag place.parent = false)
    {isFirst : Bool}
    (hfirst : isFirst = (place.before.isEmpty && place.parent.isNone))
    {n : Node} {level front : Nat} {write : Page → Page}
    (hwrite : ∀ q : Page, q.out.level = level → q.fieldBase = front →
      q.Adds (write q) (headless c.options (blockLines c (closingLevel
            c.options) level front n)) ∧ (write q).fieldBase = front + leaves n)
    (p : Page) (hlevel : p.out.level = level) (hbase : p.fieldBase = front) :
    p.Adds (finish c place (!isFirst)
      (write (if !isFirst then p.freshLine c else p)))
        ((if isFirst then headless c.options
          (blockLines c (closingLevel c.options) level front n)
          else broken c.options
            (blockLines c (closingLevel c.options) level front n)) ++
        if place.after.isEmpty && place.parent.isSome then
          lineBreak c.options (level - 1)
          else "") ∧
      (finish c place (!isFirst)
        (write (if !isFirst then p.freshLine c else p))).fieldBase =
        front + leaves n := by
  have hstart : p.Adds (if !isFirst then p.freshLine c else p)
      (if isFirst then "" else lineBreak c.options level) := by
    cases isFirst with
    | true => exact .refl p
    | false => exact Page.adds_freshLine p hlevel
  have hstartBase : (if !isFirst then p.freshLine c else p).fieldBase =
      front := by
    cases isFirst <;> exact hbase
  obtain ⟨hinside, hnext⟩ := hwrite _ (hstart.level.trans hlevel) hstartBase
  have hend := adds_finish (c := c) hparent (!isFirst) _
    (hinside.level.trans (hstart.level.trans hlevel))
  have htext : (if isFirst then "" else lineBreak c.options level) ++
      headless c.options (blockLines c (closingLevel c.options) level front n) =
        if isFirst then headless c.options
          (blockLines c (closingLevel c.options) level front n)
        else broken c.options
          (blockLines c (closingLevel c.options) level front n) := by
    rw [broken_blockLines]
    cases isFirst with
    | true => exact String.empty_append
    | false => rfl
  have hends : (!isFirst && place.after.isEmpty && place.parent.isSome) =
      (place.after.isEmpty && place.parent.isSome) := by
    rw [hfirst]
    cases place.parent <;> simp
  have hfinishBase : ∀ q : Page, (finish c place (!isFirst) q).fieldBase =
      q.fieldBase := by
    intro q
    rw [finish]
    split <;> rfl
  rw [← htext, ← hends]
  exact ⟨(hstart.trans hinside).trans hend, (hfinishBase _).trans hnext⟩

mutual

/-- One element begins a line, unless it is the first at the top, and if it is
the last one below another, the line of that one's closing tag begins behind
it. -/
theorem adds_writeNode (format : c.options.format = true)
    (leaf : c.options.formatLeafNode = false) (n : Node)
    (blocks : ∀ t ∈ n.preorder, isBlock c.options t = true) {place : Place}
    (hparent : isTextTag place.parent = false) {level front : Nat} (p : Page)
    (hlevel : p.out.level + indentStep c.options place.parent = level)
    (hbase : p.fieldBase = front) :
    p.Adds (writeNode c place n p)
        ((if place.before.isEmpty && place.parent.isNone then
            headless c.options
              (blockLines c (closingLevel c.options) level front n)
          else broken c.options
            (blockLines c (closingLevel c.options) level front n)) ++
        if place.after.isEmpty && place.parent.isSome then
          lineBreak c.options (level - 1)
          else "") ∧
      (writeNode c place n p).fieldBase = front + leaves n := by
  match n with
  | ⟨tag, children⟩ =>
    rw [Node.preorder_mk, List.forall_mem_cons] at blocks
    obtain ⟨hblock, hchildren⟩ := blocks
    obtain ⟨name, hname⟩ := exists_name_of_isBlock hblock
    have hbelow : children ≠ [] → ∀ q : Page, q.out.level = level →
        q.fieldBase = front →
        q.Adds (writeNodes c (some tag) [] children q)
          (broken c.options (blockLinesOf c (closingLevel c.options)
            (innerLevel c.options tag level) front children) ++
            lineBreak c.options (closingLevel c.options tag level)) ∧
        (writeNodes c (some tag) [] children q).fieldBase =
          front + leavesOf children := by
      intro hne q hq hqbase
      have hlevel' : q.out.level + indentStep c.options (some tag) =
          innerLevel c.options tag level := by rw [hq, indentStep_some hblock]
      have hnodes := adds_writeNodes format leaf children hchildren []
        (isTextTag_of_isBlock hblock) q hlevel' hqbase
      have hsome : (!children.isEmpty && (some tag).isSome) = true := by
        simpa using hne
      rwa [Option.isNone_some, Bool.and_false, if_neg Bool.false_ne_true,
        if_pos hsome, closingLevel_eq] at hnodes
    have hplaced := adds_placed hparent rfl
      (fun q hq hqbase =>
        adds_writeElement leaf hname hblock hbelow q hq hqbase)
      (p.shift (indentStep c.options place.parent)) hlevel hbase
    have hbegins :=
      beginsLine?_of_isBlock format hblock hparent (!children.isEmpty)
    rw [writeNode, hbegins, Option.getD_some, hname]
    exact ⟨hplaced.1.unshift, hplaced.2⟩

theorem adds_writeNodes (format : c.options.format = true)
    (leaf : c.options.formatLeafNode = false) (ns : List Node)
    (blocks : ∀ t ∈ Node.preorders ns, isBlock c.options t = true)
    {parent : Option Tag} (before : List Tag)
    (hparent : isTextTag parent = false) {level front : Nat} (p : Page)
    (hlevel : p.out.level + indentStep c.options parent = level)
    (hbase : p.fieldBase = front) :
    p.Adds (writeNodes c parent before ns p)
        ((if before.isEmpty && parent.isNone then
            headless c.options
              (blockLinesOf c (closingLevel c.options) level front ns)
          else broken c.options
            (blockLinesOf c (closingLevel c.options) level front ns)) ++
        if !ns.isEmpty && parent.isSome then lineBreak c.options (level - 1)
          else "") ∧
      (writeNodes c parent before ns p).fieldBase = front + leavesOf ns := by
  match ns with
  | [] =>
    have hnothing : (if before.isEmpty && parent.isNone then
        headless c.options
          (blockLinesOf c (closingLevel c.options) level front [])
        else broken c.options
          (blockLinesOf c (closingLevel c.options) level front [])) ++
        (if !([] : List Node).isEmpty && parent.isSome then
          lineBreak c.options (level - 1)
          else "") = "" := by
      rw [blockLinesOf]
      split <;> rfl
    rw [hnothing, writeNodes]
    exact ⟨.refl p, hbase⟩
  | n :: ns =>
    rw [Node.preorders_cons, List.forall_mem_append] at blocks
    obtain ⟨hn, hns⟩ := blocks
    have hplace :
        isTextTag (Place.mk parent before (ns.map (·.tag))).parent = false :=
      hparent
    obtain ⟨hnode, hnext⟩ :=
      adds_writeNode format leaf n hn hplace p hlevel hbase
    obtain ⟨hrest, hend⟩ :=
      adds_writeNodes format leaf ns hns (n.tag :: before) hparent
      (writeNode c ⟨parent, before, ns.map (·.tag)⟩ n p)
        (by rw [hnode.level, hlevel]) hnext
    rw [writeNodes]
    refine ⟨?_, by rw [hend, leavesOf, Nat.add_assoc]⟩
    have hall := hnode.trans hrest
    rw [blockLinesOf, headless_append (blockLines_ne_nil _ _ _ n),
      broken_append]
    -- the line of the closing tag begins behind the last one of the nodes
    cases ns with
    | nil => cases hfirst : before.isEmpty && parent.isNone <;>
        simpa [blockLinesOf, broken, hfirst] using hall
    | cons m ms => cases hfirst : before.isEmpty && parent.isNone <;>
        simpa [hfirst, String.append_assoc] using hall

end

end Writing

end Tagged

def openingLevel (_ : Tag) (level : Nat) : Nat := level

section

variable {c : Config}

mutual

theorem blockLines_of_isAligned {level : Nat} {n : Node}
    (aligned : isAligned c.options level n = true) (front : Nat) :
    blockLines c (closingLevel c.options) level front n =
      blockLines c openingLevel level front n := by
  match n with
  | ⟨tag, children⟩ =>
    rw [isAligned, Bool.and_eq_true] at aligned
    have hbelow := blockLinesOf_of_areAligned aligned.2 front
    rw [blockLines, blockLines, hbelow]
    cases hchildren : children.isEmpty with
    | true => rfl
    | false =>
      have hlevel : closingLevel c.options tag level =
          openingLevel tag level := by
        have htop := aligned.1
        rw [hchildren, Bool.or_false] at htop
        rw [closingLevel, openingLevel]
        cases hskipped : isSkipped c.options tag with
        | false => rfl
        | true =>
          have hzero : level = 0 := by simpa [hskipped] using htop
          rw [hzero]
          rfl
      rw [hlevel]

theorem blockLinesOf_of_areAligned {level : Nat} {ns : List Node}
    (aligned : areAligned c.options level ns = true) (front : Nat) :
    blockLinesOf c (closingLevel c.options) level front ns =
      blockLinesOf c openingLevel level front ns := by
  match ns with
  | [] => rw [blockLinesOf, blockLinesOf]
  | n :: ns =>
    rw [areAligned, Bool.and_eq_true] at aligned
    rw [blockLinesOf, blockLinesOf, blockLines_of_isAligned aligned.1,
      blockLinesOf_of_areAligned aligned.2]

end

/-- The markup of block elements is the lines of their tags.  The closing tag of
an element with children has the indentation of its opening tag, but one unit
less if the element is skipped; so closing tags line up with opening tags if
skipped elements stand at the top only. -/
theorem render_blocks (tagged : c.dialect.isOutline = false)
    (format : c.options.format = true) (newline : c.options.newline = "\n")
    (baseIndent : c.options.baseIndent = "")
    (leaf : c.options.formatLeafNode = false) {nodes : List Node}
    (blocks : ∀ t ∈ Node.preorders nodes, isBlock c.options t = true) :
    Node.render c nodes = Text.join "\n"
        ((blockLinesOf c (closingLevel c.options) 0 0 nodes).map
          (Line.shown c.options)) ∧
      (areAligned c.options 0 nodes = true →
        blockLinesOf c (closingLevel c.options) 0 0 nodes =
          blockLinesOf c openingLevel 0 0 nodes) := by
  refine ⟨?_, fun aligned => blockLinesOf_of_areAligned aligned 0⟩
  have htop : ({} : Page).out.level + Tagged.indentStep c.options none =
      (0 : Nat) := rfl
  have hfront : ({} : Page).fieldBase = 0 := rfl
  have hwritten :=
    (Tagged.adds_writeNodes format leaf nodes blocks [] rfl {} htop hfront).1
  have htext : (Tagged.page c nodes).out.text =
      headless c.options
        (blockLinesOf c (closingLevel c.options) 0 0 nodes) := by
    rw [Tagged.page]
    simpa using hwritten.text
  rw [render_of_isOutline_eq_false tagged, htext]
  cases nodes with
  | nil => rw [blockLinesOf]; rfl
  | cons n ns =>
    obtain ⟨l, ls, hlines, hlevel⟩ : ∃ l ls,
        blockLinesOf c (closingLevel c.options) 0 0 (n :: ns) = l :: ls ∧
          l.level = 0 := by
      obtain ⟨tag, children⟩ := n
      rw [blockLinesOf, blockLines]
      split <;> exact ⟨_, _, rfl, rfl⟩
    rw [hlines, join_shown newline baseIndent, hlevel]
    exact String.empty_append.symm

end

namespace BlockLinesWitness

/-- Without snippets, and with `nav` for elements that are skipped. -/
def config : Config :=
  { snippets := {}, options := { formatSkip := ["html", "nav"] } }

/-- The tree of `html>section>(nav>div+div)+ul`, where a skipped element stands
further in. -/
def page : List Node :=
  [⟨{ name := some "html" }, [⟨{ name := some "section" },
    [⟨{ name := some "nav" }, [⟨{ name := some "div" }, []⟩,
          ⟨{ name := some "div" }, []⟩]⟩, ⟨{ name := some "ul" }, []⟩]⟩]⟩]

/-- The tree of `div>html>p`. -/
def nested : List Node :=
  [⟨{ name := some "div" },
    [⟨{ name := some "html" }, [⟨{ name := some "p" }, []⟩]⟩]⟩]

/-- The markup of `div>html>p`. -/
def markup : String := "<div>\n\t<html>\n\t<p></p>\n</html>\n</div>"

theorem render_blocks_page :
    (config.dialect.isOutline = false ∧ config.options.format = true ∧
      config.options.newline = "\n" ∧ config.options.baseIndent = "" ∧
      config.options.formatLeafNode = false ∧
      ∀ t ∈ Node.preorders page, isBlock config.options t = true) ∧
    Node.render config page = Text.join "\n"
      ["<html>", "<section>", "\t<nav>", "\t<div></div>",
        "\t<div></div>", "</nav>",
        "\t<ul></ul>", "</section>", "</html>"] ∧
    Node.render config page = Text.join "\n"
      ((blockLinesOf config (closingLevel config.options) 0 0 page).map
        (Line.shown config.options)) := by
  have blocks : ∀ t ∈ Node.preorders page, isBlock config.options t = true := by
    decide
  exact ⟨⟨rfl, rfl, rfl, rfl, rfl, blocks⟩, by decide +kernel,
    (render_blocks rfl rfl rfl rfl rfl blocks).1⟩

theorem tree_nested :
    Expansion.tree config "div>html>p" = .ok ⟨nested, [], 0⟩ := by
  rw [config, nested]
  cbv

/-- The closing tag of a skipped element in another one does not line up with
its opening tag. -/
theorem closing_unaligned :
    Expansion.tree config "div>html>p" = .ok ⟨nested, [], 0⟩ ∧
      (expand config "div>html>p").map (·.result) = .ok markup ∧
      (∀ t ∈ Node.preorders nested, isBlock config.options t = true) ∧
      markup ≠ Text.join "\n"
        ((blockLinesOf config openingLevel 0 0 nested).map
          (Line.shown config.options)) := by
  have hrender : Node.render config nested = markup := by decide +kernel
  refine ⟨tree_nested, ?_, by decide, by decide +kernel⟩
  rw [expand, tree_nested]
  exact congrArg Except.ok hrender

end BlockLinesWitness

end Scaffold.Markup

import Scaffold.Proofs.Markup.Outlining
import Scaffold.Proofs.Markup.ValueLines
/-!
Values of several lines in an outline.  Each line of the value is a line of the
outline, one level further in than its node, with the text of the value's line
as it is behind the dialect's mark. Where the dialect ends such lines with a
mark too, all of them are filled up to the length of the longest.  Main
statement: `writeValue_rows`.
-/
namespace Scaffold.Markup

namespace Page

def Holds (p q : Page) (s : String) : Prop :=
  ∃ front behind, p.Adds q (front ++ s ++ behind)

variable {p q r : Page} {s : String}

theorem Extends.level (h : p.Extends q) : q.out.level = p.out.level := by
  obtain ⟨t, ht⟩ := h
  exact ht.level

theorem Adds.holds (h : p.Adds q s) : p.Holds q s :=
  ⟨"", "", by rwa [String.empty_append, String.append_empty]⟩

theorem Holds.extends (h : p.Holds q s) (h' : q.Extends r) : p.Holds r s := by
  obtain ⟨front, behind, hq⟩ := h
  obtain ⟨t, ht⟩ := h'
  exact ⟨front, behind ++ t, by rw [← String.append_assoc]; exact hq.trans ht⟩

theorem Extends.holds (h : p.Extends q) (h' : q.Holds r s) : p.Holds r s := by
  obtain ⟨t, ht⟩ := h
  obtain ⟨front, behind, hr⟩ := h'
  exact ⟨t ++ front, behind,
    by simpa only [String.append_assoc] using ht.trans hr⟩

theorem Holds.unshift {n : Int} (h : (p.shift n).Holds q s) :
    p.Holds (q.shift (-n)) s := by
  obtain ⟨front, behind, hq⟩ := h
  exact ⟨front, behind, hq.unshift⟩

theorem Extends.unshift {n : Int} (h : (p.shift n).Extends q) :
    p.Extends (q.shift (-n)) := by
  obtain ⟨t, ht⟩ := h
  exact ⟨t, ht.unshift⟩

end Page

namespace Outline

/-- What stands in front of a line at a level. -/
def indentation (o : Options) (level : Nat) : String :=
  o.baseIndent ++ String.join (List.replicate level o.indent)

/-- The length that the lines of a value are filled up to. -/
def valueWidth (value : List Piece) : Nat :=
  ((valueLines value).map lineLength).foldl max 0

/-- A line of an outline with a line of a value. -/
def row (o : Options) (style : OutlineStyle) (level width : Nat)
    (text : String) : String :=
  indentation o level ++ style.beforeTextLine ++ text ++
    if style.afterTextLine.isEmpty then ""
    else String.ofList (List.replicate (width - text.length) ' ') ++
      style.afterTextLine

def rows (o : Options) (style : OutlineStyle) (level : Nat)
    (value : List Piece) : List String :=
  (valueLines value).map fun line => row o style level (valueWidth value)
    (Piece.plainText line)

/-- Lines, each behind a line break. -/
def block (o : Options) (rows : List String) : String :=
  String.join (rows.map (o.newline ++ ·))

theorem lineBreak_eq (o : Options) (level : Nat) :
    lineBreak o level = o.newline ++ indentation o level := by
  rw [lineBreak, indentation, String.append_assoc]

theorem block_cons (o : Options) (r : String) (rs : List String) :
    block o (r :: rs) = o.newline ++ r ++ block o rs := String.join_cons

/-! ### Lengths -/

theorem lineLength_eq (line : List Piece) :
    lineLength line = (Piece.plainText line).length := by
  have hfold : ∀ (line : List Piece) n,
      line.foldl (fun n piece => n + piece.plain.length) n =
      n + (Piece.plainText line).length := by
    intro line
    induction line with
    | nil => intro n; rfl
    | cons x line ih =>
        intro n
        rw [List.foldl_cons, ih, Piece.plainText_cons, String.length_append,
          Nat.add_assoc]
  rw [lineLength, hfold, Nat.zero_add]

/-- No line is longer than what lines are filled up to. -/
theorem lineLength_le_valueWidth {value line : List Piece}
    (hline : line ∈ valueLines value) : lineLength line ≤ valueWidth value := by
  rw [valueWidth, List.foldl_eq_foldr]
  exact List.le_max_of_le' 0 (List.mem_map_of_mem hline) (Nat.le_refl _)

theorem length_row {o : Options} {style : OutlineStyle}
    (hafter : style.afterTextLine.isEmpty = false) (level : Nat) {width : Nat}
    {text : String} (hwidth : text.length ≤ width) :
    (row o style level width text).length =
      (indentation o level).length + style.beforeTextLine.length + width +
        style.afterTextLine.length := by
  rw [row, hafter, if_neg Bool.false_ne_true]
  simp only [String.length_append, String.length_ofList, List.length_replicate]
  omega

section Writing

variable {c : Config} {style : OutlineStyle}

theorem written_eq (hooks : c.hooks = {}) (base : Nat) (ps : List Piece) :
    written c base ps = Piece.plainText ps := by
  rw [written, Piece.plainText, hooks]
  congr 1

/-- One line of a value. -/
theorem adds_writeLine (hooks : c.hooks = {}) {line : List Piece}
    (hline : line.all (!spansLines ·) = true) (width : Nat) (p : Page) :
    p.Adds (writeLine c style width p line)
      (c.options.newline ++
        row c.options style p.out.level.toNat width
          (Piece.plainText line)) := by
  have plain : ∀ s, c.hooks.text s = s := fun s => by rw [hooks]
  have hbefore : ∀ q : Page, q.Adds
      (if style.beforeTextLine.isEmpty then q
        else q.push c style.beforeTextLine)
      style.beforeTextLine := by
    intro q
    split
    · next hempty =>
        rw [String.isEmpty_iff.1 hempty]
        exact .refl q
    · exact Page.adds_push plain q _
  have hafter : ∀ q : Page, q.Adds
      (if style.afterTextLine.isEmpty then q else
        (q.push c (String.ofList
          (List.replicate (width - lineLength line) ' '))).push c
          style.afterTextLine)
      (if style.afterTextLine.isEmpty then "" else
        String.ofList
          (List.replicate (width - (Piece.plainText line).length) ' ') ++
          style.afterTextLine) := by
    intro q
    rw [lineLength_eq]
    split
    · exact .refl q
    · exact (Page.adds_push plain q _).trans (Page.adds_push plain _ _)
  have hpieces : ∀ q : Page,
      q.Adds (q.pieces c line) (Piece.plainText line) := by
    intro q
    have hwritten := Page.adds_pieces plain q hline
    rwa [written_eq hooks] at hwritten
  have hbreak := Page.adds_newline c p p.out.level
  have hall := ((hbreak.trans (hbefore _)).trans (hpieces _)).trans (hafter _)
  rw [lineBreak_eq] at hall
  rw [row, ← String.append_assoc, ← String.append_assoc, ← String.append_assoc]
  exact hall

theorem adds_lines (hooks : c.hooks = {}) {lines : List (List Piece)}
    (hlines : ∀ line ∈ lines, line.all (!spansLines ·) = true) (width : Nat)
    (p : Page) :
    p.Adds (lines.foldl (writeLine c style width) p)
      (block c.options (lines.map fun line =>
        row c.options style p.out.level.toNat width
          (Piece.plainText line))) := by
  induction lines generalizing p with
  | nil => exact .refl p
  | cons line lines ih =>
      rw [List.forall_mem_cons] at hlines
      have hfirst : p.Adds (writeLine c style width p line) _ :=
        adds_writeLine hooks hlines.1 width p
      have hrest := ih hlines.2 (writeLine c style width p line)
      rw [hfirst.level] at hrest
      rw [List.map_cons, block_cons]
      exact hfirst.trans hrest

theorem all_of_mem_valueLines {value line : List Piece}
    (hline : line ∈ valueLines value) : line.all (!spansLines ·) = true := by
  rw [List.all_eq_true]
  intro x hx
  obtain ⟨y, -, hpart⟩ := exists_of_mem_valueLines hline hx
  cases y with
  | text s =>
      obtain ⟨part, hmem, rfl⟩ := List.mem_map.1 hpart
      rw [spansLines, Text.hasBreak_of_mem_lines (List.mem_filter.1 hmem).1]
      rfl
  | field index name =>
      obtain rfl := List.mem_singleton.1 hpart
      rfl

/-- A value of several lines is written line by line, one level further in. -/
theorem adds_rows (hooks : c.hooks = {}) {value : List Piece}
    (several : ∃ x ∈ value, spansLines x = true) (t : Tag) (p : Page) :
    p.Adds (writeValue c style t value p)
      (block c.options
        (rows c.options style (p.out.level + 1).toNat value)) := by
  have hlines : (p.shift 1).Adds
      ((valueLines value).foldl (writeLine c style (valueWidth value))
        (p.shift 1)) _ :=
    adds_lines hooks (fun _ => all_of_mem_valueLines) (valueWidth value)
      (p.shift 1)
  have hlength := one_lt_length_valueLines_iff.2 several
  rw [writeValue]
  split
  · next hnone => simp [hnone] at hlength
  · next line hone => simp [hone] at hlength
  · exact hlines.unshift

end Writing

/-! ### Lines of an outline -/

section Reading

variable {o : Options} {b : Text.LineBreak}

theorem weave_rows (newline : o.newline = b.text) (r : String)
    (rs : List String) :
    Text.weave (r :: rs) (List.replicate rs.length b) = r ++ block o rs := by
  induction rs generalizing r with
  | nil => exact (String.append_empty).symm
  | cons next rs ih =>
      rw [List.length_cons, List.replicate_succ, Text.weave, ih,
        block_cons, newline]
      simp only [String.append_assoc]

theorem endsAt_block (newline : o.newline = b.text) {r : String}
    (hr : Text.hasBreak r = false) (rs : List String) :
    b.EndsAt (r ++ block o rs) := by
  rintro rfl
  cases hcs : r.toList with
  | nil =>
      cases rs with
      | nil => simp [block, hcs]
      | cons next rs => simp [block_cons, newline, Text.LineBreak.text, hcs]
  | cons ch cs =>
      have hch := Text.hasBreak_eq_false_iff_forall.1 hr ch (by simp [hcs])
      rw [String.toList_append, hcs, List.cons_append, List.head?_cons]
      rintro ⟨⟩
      cases hch

theorem keepsPairs_rows (newline : o.newline = b.text) {rs : List String}
    (hrs : ∀ r ∈ rs, Text.hasBreak r = false) (first : String) :
    Text.KeepsPairs (first :: rs) (List.replicate rs.length b) := by
  induction rs generalizing first with
  | nil => trivial
  | cons r rs ih =>
      rw [List.forall_mem_cons] at hrs
      rw [List.length_cons, List.replicate_succ, Text.KeepsPairs,
        weave_rows newline]
      exact ⟨endsAt_block newline hrs.1 rs, ih hrs.2 r⟩

/-- Where lines are ended by a line break, lines without one are read back. -/
theorem lines_block (newline : o.newline = b.text) {rs : List String}
    (hrs : ∀ r ∈ rs, Text.hasBreak r = false) :
    Text.lines (block o rs) = "" :: rs := by
  have hcuts : Text.Cuts (block o rs) ("" :: rs) (List.replicate rs.length b) :=
    { length := by rw [List.length_cons, List.length_replicate]
      clean := List.forall_mem_cons.2 ⟨rfl, hrs⟩
      woven := by rw [weave_rows newline, String.empty_append] }
  exact (Text.eq_lines_of_cuts hcuts (keepsPairs_rows newline hrs "")).1.symm

theorem hasBreak_row {style : OutlineStyle} {level width : Nat} {text : String}
    (hindent : Text.hasBreak (indentation o level) = false)
    (hbefore : Text.hasBreak style.beforeTextLine = false)
    (hafter : Text.hasBreak style.afterTextLine = false)
    (htext : Text.hasBreak text = false) :
    Text.hasBreak (row o style level width text) = false := by
  have hfill : ∀ n, Text.hasBreak (String.ofList (List.replicate n ' ')) =
      false := by
    intro n
    rw [Text.hasBreak_eq_false_iff_forall, String.toList_ofList]
    intro ch hch
    rw [List.eq_of_mem_replicate hch]
    rfl
  have hend : Text.hasBreak (if style.afterTextLine.isEmpty then "" else
      String.ofList (List.replicate (width - text.length) ' ') ++
        style.afterTextLine) = false := by
    split
    · rfl
    · rw [Text.hasBreak_append, hfill, hafter]
      rfl
  rw [row, Text.hasBreak_append, Text.hasBreak_append, Text.hasBreak_append,
    hindent, hbefore, htext, hend]
  rfl

theorem hasBreak_textLine_of_outlineStyle? {c : Config} {style : OutlineStyle}
    (hstyle : c.outlineStyle? = some style) :
    Text.hasBreak style.beforeTextLine = false ∧
    Text.hasBreak style.afterTextLine = false := by
  have hmarks : (style.beforeTextLine = "| " ∨ style.beforeTextLine = "") ∧
      (style.afterTextLine = " |" ∨ style.afterTextLine = "") := by
    rw [Config.outlineStyle?] at hstyle
    cases hdialect : c.dialect <;> rw [hdialect] at hstyle
    case pug | haml | slim =>
      obtain rfl := Option.some.inj hstyle
      simp [OutlineStyle.pug, OutlineStyle.haml, OutlineStyle.slim]
    all_goals cases hstyle
  obtain ⟨hbefore | hbefore, hafter | hafter⟩ :=
    hmarks <;> rw [hbefore, hafter] <;>
    exact ⟨rfl, rfl⟩

end Reading

/-! ### Outlines of trees -/

section Trees

variable {c : Config} {style : OutlineStyle}

theorem extends_writeShorthand (p : Page) (a : Attribute) :
    p.Extends (writeShorthand c p a) := by
  rw [writeShorthand]
  split
  · exact .refl p
  · split
    · exact (Page.extends_string c p ".").trans (Page.extends_pieces c _ _)
    · exact (Page.extends_string c p "#").trans (Page.extends_pieces c _ _)

theorem extends_writeAttributes (attributes : List Attribute) (p : Page) :
    p.Extends (writeAttributes c style attributes p) := by
  rw [writeAttributes]
  split
  · exact .refl p
  · exact ((Page.extends_string c p _).trans (extends_writeAttributeList
      attributes _)).trans (Page.extends_string c _ _)

theorem extends_writeHead (t : Tag) (p : Page) :
    p.Extends (writeHead c style t p) := by
  rw [writeHead]
  refine Page.Extends.trans (Page.Extends.trans ?_ (Page.extends_foldl
    extends_writeShorthand _ _)) (extends_writeAttributes _ _)
  -- the name may be left out
  split
  · split
    · exact .refl p
    · exact Page.extends_string c p _
  · exact .refl p

theorem extends_writeValue (t : Tag) (value : List Piece) (p : Page) :
    p.Extends (writeValue c style t value p) := by
  have hline :
      p.Extends ((if t.isText then p else p.push c " ").pieces c value) := by
    split
    · exact Page.extends_pieces c p value
    · exact (Page.extends_push c p " ").trans (Page.extends_pieces c _ value)
  have hwrite : ∀ width (q : Page) line,
      q.Extends (writeLine c style width q line) :=
    fun width q line =>
      (Page.extends_newline c q q.out.level).trans
        (extends_writeLine width q line)
  rw [writeValue]
  split
  · exact hline
  · exact hline
  · exact (Page.extends_foldl (hwrite _) _ _).unshift

theorem extends_shownValue (t : Tag) (hasChildren : Bool) (p : Page) :
    p.Extends (match shownValue c.hooks t hasChildren with
      | some value => writeValue c style t value p
      | none => p) := by
  split
  · exact extends_writeValue t _ p
  · exact .refl p

/-- What a node starts with: a line of its own, unless it goes on in its line,
and its header. -/
theorem extends_start (isFirst : Bool) (t : Tag) (p : Page) :
    p.Extends (writeHead c style t (if isFirst || t.isText then p
      else p.freshLine c)) := by
  have hstart :
      p.Extends (if isFirst || t.isText then p else p.freshLine c) := by
    split
    · exact .refl p
    · exact Page.extends_newline c p _
  exact hstart.trans (extends_writeHead t _)

mutual

theorem extends_writeNode (isTop isFirst : Bool) (n : Node) (p : Page) :
    p.Extends (writeNode c style isTop isFirst n p) := by
  match n with
  | ⟨tag, children⟩ =>
    rw [writeNode]
    have hstart :
        (p.shift (if isTop then 0 else 1)).Extends (writeHead c style tag _) :=
      extends_start (isTop && isFirst) tag _
    refine Page.Extends.unshift (hstart.trans ?_)
    generalize writeHead c style tag _ = q
    split
    · exact Page.extends_string c _ _
    · exact (extends_shownValue tag _ _).trans
        (extends_writeNodes false true children _)

theorem extends_writeNodes (isTop isFirst : Bool) (ns : List Node) (p : Page) :
    p.Extends (writeNodes c style isTop isFirst ns p) := by
  match ns with
  | [] =>
    rw [writeNodes]
    exact .refl p
  | n :: ns =>
    rw [writeNodes]
    exact (extends_writeNode isTop isFirst n p).trans
      (extends_writeNodes isTop false ns _)

end

variable {item : Item} {value : List Piece}

mutual

theorem holds_writeNode (hooks : c.hooks = {})
    (several : ∃ x ∈ value, spansLines x = true) (isTop isFirst first : Bool)
    (depth : Nat) (n : Node) (p : Page)
    (hlevel : p.out.level + (if isTop then 0 else 1) = depth)
    (hitem : item ∈ items depth first n)
    (hvalue : item.tag.value = some value) :
    p.Holds (writeNode c style isTop isFirst n p)
      (block c.options (rows c.options style (item.depth + 1) value)) := by
  match n with
  | ⟨tag, children⟩ =>
    rw [items] at hitem
    rw [writeNode]
    have hat : (p.shift (if isTop then 0 else 1)).out.level = depth := hlevel
    have hstart :
        (p.shift (if isTop then 0 else 1)).Extends (writeHead c style tag _) :=
      extends_start (isTop && isFirst) tag _
    refine Page.Holds.unshift (hstart.holds ?_)
    have hhead := hstart.level.trans hat
    clear hstart
    generalize writeHead c style tag _ = q at hhead ⊢
    rcases List.mem_cons.1 hitem with rfl | hbelow
    · have htag : tag.value = some value := hvalue
      have hrows : q.Adds (writeValue c style tag value q) _ :=
        adds_rows hooks several tag q
      rw [hhead] at hrows
      rw [htag, shownValue, htag, Option.isNone_some, Bool.and_false,
        Bool.false_and]
      exact hrows.holds.extends (extends_writeNodes false true children _)
    · split
      · next hclosed =>
          -- a node that closes itself has nothing below it
          have hnone : children = [] := by
            simpa using (Bool.and_eq_true_iff.1 hclosed).2
          rw [hnone] at hbelow
          cases hbelow
      · have hshown :
            q.Extends (match shownValue c.hooks tag (!children.isEmpty) with
            | some value => writeValue c style tag value q
            | none => q) := extends_shownValue tag _ q
        exact hshown.holds
          (holds_writeNodes hooks several false true false (depth + 1) children
            _ (by rw [hshown.level, hhead]; rfl) hbelow hvalue)

theorem holds_writeNodes (hooks : c.hooks = {})
    (several : ∃ x ∈ value, spansLines x = true) (isTop isFirst first : Bool)
    (depth : Nat) (ns : List Node) (p : Page)
    (hlevel : p.out.level + (if isTop then 0 else 1) = depth)
    (hitem : item ∈ itemsOf depth first ns)
    (hvalue : item.tag.value = some value) :
    p.Holds (writeNodes c style isTop isFirst ns p)
      (block c.options (rows c.options style (item.depth + 1) value)) := by
  match ns with
  | [] => cases hitem
  | n :: ns =>
    rw [itemsOf] at hitem
    rw [writeNodes]
    have hfirst : p.Extends (writeNode c style isTop isFirst n p) :=
      extends_writeNode isTop isFirst n p
    rcases List.mem_append.1 hitem with hitem | hitem
    · have hnode := holds_writeNode hooks several isTop isFirst first depth n p
        hlevel hitem hvalue
      exact hnode.extends (extends_writeNodes isTop false ns _)
    · exact hfirst.holds (holds_writeNodes hooks several isTop false false depth
        ns _ (by rw [hfirst.level, hlevel]) hitem hvalue)

end

/-- A value of several lines becomes one line of the outline for each of its
own, which its breaks stand between: one level further in than its node, behind
the dialect's mark, with the line's text as it is.  Where the outline's lines
end in line breaks, these lines are lines when they are read back.  In haml,
nothing is longer than what lines are filled up to, and all of them have one
length and end alike. -/
theorem writeValue_rows (hooks : c.hooks = {})
    (hstyle : c.outlineStyle? = some style)
    (several : ∃ x ∈ value, spansLines x = true)
    (names : ∀ index name, Piece.field index name ∈ value →
      Text.hasBreak name = false) :
    Text.Cuts (Piece.plainText value) ((valueLines value).map Piece.plainText)
        (value.flatMap Piece.breaks) ∧
      (∀ (t : Tag) (p : Page), p.Adds (writeValue c style t value p)
        (block c.options
          (rows c.options style (p.out.level + 1).toNat value))) ∧
      (∀ nodes, ∀ item ∈ itemsOf 0 true nodes, item.tag.value = some value →
        ∃ front behind, Node.render c nodes =
          front ++ block c.options
            (rows c.options style (item.depth + 1) value) ++ behind) ∧
      (∀ (b : Text.LineBreak) (level : Nat), c.options.newline = b.text →
        Text.hasBreak (indentation c.options level) = false →
        Text.lines (block c.options (rows c.options style level value)) =
          "" :: rows c.options style level value) ∧
      (c.dialect = .haml →
        (∀ line ∈ valueLines value, lineLength line ≤ valueWidth value) ∧
        ∀ level, ∀ r ∈ rows c.options style level value,
          r.length = (indentation c.options level).length +
            valueWidth value + 2 ∧
            ∃ front, r = front ++ " |") := by
  have hcuts := cuts_valueLines names
  obtain ⟨hbefore, hafter⟩ := hasBreak_textLine_of_outlineStyle? hstyle
  refine ⟨hcuts, adds_rows hooks several, ?_, ?_, ?_⟩
  · intro nodes item hitem hvalue
    have hholds : ({} : Page).Holds (writeNodes c style true true nodes {}) _ :=
      holds_writeNodes hooks several true true true 0 nodes {} rfl hitem hvalue
    obtain ⟨front, behind, hadds⟩ := hholds
    rw [render_of_outlineStyle? hstyle, page, hadds.text]
    exact ⟨front, behind, String.empty_append⟩
  · intro b level newline hindent
    apply lines_block newline
    intro r hr
    obtain ⟨line, hline, rfl⟩ := List.mem_map.1 hr
    exact hasBreak_row hindent hbefore hafter
      (hcuts.clean _ (List.mem_map_of_mem hline))
  · intro hhaml
    obtain rfl : OutlineStyle.haml = style := by
      rw [Config.outlineStyle?, hhaml] at hstyle
      exact Option.some.inj hstyle
    refine ⟨fun line => lineLength_le_valueWidth, ?_⟩
    intro level r hr
    obtain ⟨line, hline, rfl⟩ := List.mem_map.1 hr
    have hwidth := lineLength_le_valueWidth hline
    rw [lineLength_eq] at hwidth
    refine ⟨length_row rfl level hwidth, ?_⟩
    exact ⟨_, by rw [row, if_neg (by decide), ← String.append_assoc]; rfl⟩

end Trees

namespace RowsWitness

def config : Config := { dialect := .haml, snippets := {} }

/-- Two breaks of two kinds, the second at the end, and a field. -/
def value : List Piece := [.text "ab\r\nc", .field 1 "name", .text "\r"]

/-- An element with the value, below another one. -/
def tree : List Node :=
  [⟨{ name := some "ul" }, [⟨{ name := some "li", value := some value }, []⟩]⟩]

theorem writeValue_rows_mixed :
    (∃ x ∈ value, spansLines x = true) ∧
      (∀ index name, Piece.field index name ∈ value →
        Text.hasBreak name = false) ∧
      Node.render config tree =
        "%ul\n\t%li\n\t\tab    |\n\t\tcname |\n\t\t      |" ∧
      rows config.options .haml 2 value =
        ["\t\tab    |", "\t\tcname |", "\t\t      |"] ∧
      ∃ front behind, Node.render config tree =
        front ++ block config.options (rows config.options .haml 2 value) ++
          behind := by
  have several : ∃ x ∈ value, spansLines x = true :=
    ⟨.text "\r", by decide, by decide⟩
  have names : ∀ index name, Piece.field index name ∈ value →
      Text.hasBreak name = false := by
    intro index name h
    simp only [value, List.mem_cons, List.not_mem_nil, Piece.field.injEq,
      reduceCtorEq, false_or, or_false] at h
    rw [h.2]
    rfl
  have hrows := @writeValue_rows config .haml value rfl rfl several names
  refine ⟨several, names, by decide +kernel, by decide +kernel, ?_⟩
  exact hrows.2.2.1 tree
    ⟨1, false, { name := some "li", value := some value }, true⟩
    (List.mem_cons_of_mem _ List.mem_cons_self) rfl

end RowsWitness

end Outline

end Scaffold.Markup

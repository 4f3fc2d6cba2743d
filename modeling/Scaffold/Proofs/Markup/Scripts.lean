import Mathlib
import Scaffold.Proofs.Markup.Outlining
import Scaffold.Proofs.Markup.Unformatted
/-!
Writing as the run of a script.  Both writers follow a flat list of steps that
is known in front, and writing an attribute is one of the steps, with the way in
which it is spelled out.  Only one thing hangs on the page, whether nodes in the
midst of a value broke the line, so the script has the line remembered in front
of them.  Main statement: `render_eq_run`.
-/
namespace Scaffold.Markup

/-! ### Scripts -/

/-- The ways to spell out an attribute. -/
inductive Spelling
  /-- A mark and the value. -/
  | shorthand (mark : String) (value : List Piece)
  /-- The name, an equals sign, and the value in quotes. -/
  | assigned (name : String) (quotes : String × String) (value : List Piece)
  /-- The name, and what stands behind it instead of a value. -/
  | valueless (name : String) (behind : Option String)

/-- What a writer does at a time. -/
inductive Step
  | string (s : String)
  | push (s : String)
  | pieces (ps : List Piece)
  /-- Begins a line at a level so far out of the current one. -/
  | line (back : Int)
  | shift (n : Int)
  /-- Remembers the line that is reached. -/
  | hold
  /-- Writes what comes behind nodes, which broke the line if it is not the last
  one remembered. -/
  | behind (ps : List Piece)
  | spell (a : Attribute) (spelling : Spelling)
  /-- Writes what stands between attributes and around them. -/
  | separator (s : String)

def Spelling.write (c : Config) (p : Page) : Spelling → Page
  | .shorthand mark value => (p.string c mark).pieces c value
  | .assigned name quotes value =>
    (((p.string c name).string c ("=" ++ quotes.1)).pieces c value).string
      c quotes.2
  | .valueless name none => p.string c name
  | .valueless name (some behind) => (p.string c name).string c behind

namespace Step

/-- A page and the lines that are remembered, behind a step. -/
def take (c : Config) : Page × List Nat → Step → Page × List Nat
  | (p, held), .string s => (p.string c s, held)
  | (p, held), .push s => (p.push c s, held)
  | (p, held), .pieces ps => (p.pieces c ps, held)
  | (p, held), .line back => (p.newline c (p.out.level - back), held)
  | (p, held), .shift n => (p.shift n, held)
  | (p, held), .hold => (p, p.out.line :: held)
  | (p, held), .behind ps =>
    (Tagged.writeBehind c (p.out.line != held.headD 0) ps p, held.tail)
  | (p, held), .spell _ spelling => (spelling.write c p, held)
  | (p, held), .separator s => (p.string c s, held)

def ofSpellings (spellings : List (Attribute × Spelling)) : List Step :=
  spellings.map fun (a, spelling) => spell a spelling

/-- The steps, one behind the other. -/
def run (c : Config) (steps : List Step) (start : Page × List Nat) :
    Page × List Nat :=
  steps.foldl (take c) start

/-- Steps that do to a page what a writer does, and leave what is remembered as
it is. -/
def Run (c : Config) (steps : List Step) (write : Page → Page) : Prop :=
  ∀ (p : Page) (held : List Nat), run c steps (p, held) = (write p, held)

end Step

namespace Tagged

/-- The way in which tagged markup spells out an attribute of a name. -/
def spelling (o : Options) (a : Attribute) (name : String) : Spelling :=
  let f := form o a name
  match f.value with
  | some value => .assigned (" " ++ f.name) f.quotes value
  | none =>
    .valueless (" " ++ f.name)
      (if o.selfClosing = .html then none
        else some ("=" ++ f.quotes.1 ++ f.quotes.2))

/-- The attributes that tagged markup writes of a tag: an element's, if they
have names. -/
def spelled (o : Options) (t : Tag) : List (Attribute × Spelling) :=
  if t.name.isSome then
    (t.attributeList.filter isWritten).filterMap fun a =>
      a.name.map fun name => (a, spelling o a name)
  else []

def onOwnLinesSteps (wanted : Bool) (steps : List Step) : List Step :=
  if wanted then [.shift 1, .line 0] ++ steps ++ [.shift (-1), .line 0]
  else steps

def valueSteps (o : Options) (value : List Piece) : List Step :=
  onOwnLinesSteps (value.any spansLines || beginsWithBlock o value)
    [.pieces value]

def caretSteps (o : Options) (name : String) : List Step :=
  onOwnLinesSteps (o.formatLeafNode || Options.lists o.formatForce name)
    [.pieces caret]

/-- A node's value around or in front of what is below it, or else what is
given. -/
def contentSteps (t : Tag) (hasChildren : Bool) (value : List Piece → List Step)
    (below otherwise : List Step) : List Step :=
  match wrapping? t hasChildren with
  | some (before, behind) =>
    [.pieces before, .hold] ++ below ++ [.behind behind]
  | none =>
    match t.value with
    | some v => value v ++ below
    | none => otherwise

def elementSteps (o : Options) (t : Tag) (rawName : String) (hasChildren : Bool)
    (below : List Step) : List Step :=
  let name := o.tagCase.apply rawName
  [.string ("<" ++ name)] ++ Step.ofSpellings (spelled o t) ++
    if t.selfClosing && !hasChildren && t.value.isNone then
      [.string (selfClosingMark o.selfClosing ++ ">")]
    else
      [.string ">"] ++
        contentSteps t hasChildren (valueSteps o) below
          (if hasChildren then below else caretSteps o rawName) ++
        [.string ("</" ++ name ++ ">")]

def finishSteps (place : Place) (begins : Bool) : List Step :=
  if begins && place.after.isEmpty && place.parent.isSome then
    [.line (if isTextTag place.parent then 0 else 1)]
  else []

mutual

/-- The script of a node at its place. -/
def nodeSteps (o : Options) (place : Place) : Node → List Step
  | ⟨tag, children⟩ =>
    let begins := beginsLine o place ⟨tag, children⟩
    let step := indentStep o place.parent
    let below := nodesSteps o (some tag) [] children
    [.shift step] ++ (if begins then [.line 0] else []) ++
      (match tag.name with
        | some name => elementSteps o tag name (!children.isEmpty) below
        | none =>
          contentSteps tag (!children.isEmpty)
            (fun v => [.pieces v]) below []) ++
      finishSteps place begins ++ [.shift (-step)]

def nodesSteps (o : Options) (parent : Option Tag) (before : List Tag) :
    List Node → List Step
  | [] => []
  | n :: ns =>
    nodeSteps o ⟨parent, before, ns.map (·.tag)⟩ n ++
      nodesSteps o parent (n.tag :: before) ns

end

end Tagged

namespace Outline

def shorthand? (a : Attribute) : Option Spelling :=
  a.value.map fun value =>
    if a.hasName "class" then .shorthand "." (value.map dotted)
    else .shorthand "#" value

/-- The way in which an outline spells out an attribute that is no shorthand;
one without a name is spelled as if its name were empty. -/
def spelling (c : Config) (style : OutlineStyle) (a : Attribute) : Spelling :=
  let name := c.options.attributeCase.apply (a.name.getD "")
  if isBoolean c.options a && a.value.isNone then
    .valueless name
      (if c.options.compactBoolean then none
        else style.booleanValue.map fun value => "=" ++ value)
  else .assigned name (quotes c.options a) (a.value.getD caret)

def spelledShorthands (t : Tag) : List (Attribute × Spelling) :=
  (t.attributeList.filter isShorthand).filterMap fun a =>
    (shorthand? a).map (a, ·)

def spelledOthers (c : Config) (style : OutlineStyle) (t : Tag) :
    List (Attribute × Spelling) :=
  ((t.attributeList.filter (!isShorthand ·)).filter isWritten).map fun a =>
    (a, spelling c style a)

def spelled (c : Config) (style : OutlineStyle) (t : Tag) :
    List (Attribute × Spelling) :=
  spelledShorthands t ++ spelledOthers c style t

def attributesSteps (style : OutlineStyle)
    (spellings : List (Attribute × Spelling)) : List Step :=
  if spellings.isEmpty then []
  else
    [.separator style.beforeAttributes] ++
      (Step.ofSpellings spellings).intersperse
        (.separator style.betweenAttributes) ++
      [.separator style.afterAttributes]

def lineSteps (style : OutlineStyle) (width : Nat) (line : List Piece) :
    List Step :=
  [.line 0] ++ (if style.beforeTextLine.isEmpty then []
    else [.push style.beforeTextLine]) ++ [.pieces line] ++
    if style.afterTextLine.isEmpty then []
    else
      [.push (String.ofList (List.replicate (width - lineLength line) ' ')),
        .push style.afterTextLine]

def valueSteps (style : OutlineStyle) (t : Tag) (value : List Piece) :
    List Step :=
  match valueLines value with
  | [] | [_] => (if t.isText then [] else [.push " "]) ++ [.pieces value]
  | several =>
    let width := (several.map lineLength).foldl max 0
    [.shift 1] ++ several.flatMap (lineSteps style width) ++ [.shift (-1)]

def nameSteps (style : OutlineStyle) (t : Tag) : List Step :=
  match t.name with
  | some name =>
    if name = "div" ∧ !(t.attributeList.filter isShorthand).isEmpty then []
    else [.string (style.beforeName ++ name)]
  | none => []

def headSteps (c : Config) (style : OutlineStyle) (t : Tag) : List Step :=
  nameSteps style t ++ Step.ofSpellings (spelledShorthands t) ++
    attributesSteps style (spelledOthers c style t)

mutual

/-- The script of a node. -/
def nodeSteps (c : Config) (style : OutlineStyle) (isTop isFirst : Bool) :
    Node → List Step
  | ⟨tag, children⟩ =>
    let step : Int := if isTop then 0 else 1
    [.shift step] ++ (if (isTop && isFirst) || tag.isText then []
      else [.line 0]) ++ headSteps c style tag ++
      (if tag.selfClosing && tag.value.isNone && children.isEmpty then
        [.string style.selfClosing]
        else
          (match shownValue c.hooks tag (!children.isEmpty) with
            | some value => valueSteps style tag value
            | none => []) ++
          nodesSteps c style false true children) ++
      [.shift (-step)]

def nodesSteps (c : Config) (style : OutlineStyle) (isTop isFirst : Bool) :
    List Node → List Step
  | [] => []
  | n :: ns =>
    nodeSteps c style isTop isFirst n ++ nodesSteps c style isTop false ns

end

end Outline

/-! ### Running a script -/

namespace Step

variable {c : Config} {steps more : List Step} {write behind : Page → Page}

theorem run_append (steps more : List Step) (start : Page × List Nat) :
    run c (steps ++ more) start = run c more (run c steps start) :=
  List.foldl_append

theorem Run.append (h : Run c steps write) (h' : Run c more behind) :
    Run c (steps ++ more) (fun p => behind (write p)) := by
  intro p held
  rw [run_append, h, h']

theorem run_nil : Run c [] (fun p => p) := fun _ _ => rfl

theorem run_string (s : String) : Run c [.string s] (·.string c s) :=
  fun _ _ => rfl

theorem run_push (s : String) : Run c [.push s] (·.push c s) := fun _ _ => rfl

theorem run_pieces (ps : List Piece) : Run c [.pieces ps] (·.pieces c ps) :=
  fun _ _ => rfl

theorem run_shift (n : Int) : Run c [.shift n] (·.shift n) := fun _ _ => rfl

theorem run_separator (s : String) : Run c [.separator s] (·.string c s) :=
  fun _ _ => rfl

theorem run_line : Run c [.line 0] (·.freshLine c) := by
  intro p held
  have hlevel : p.out.level - 0 = p.out.level := Int.sub_zero _
  rw [run, List.foldl_cons, List.foldl_nil, take, hlevel]
  rfl

theorem Run.ite (h : Run c steps write) (h' : Run c more behind)
    (condition : Prop) [Decidable condition] :
    Run c (if condition then steps else more)
      (fun p => if condition then write p else behind p) := by
  split
  · exact h
  · exact h'

/-- The steps of all members of a list, one behind the other. -/
theorem run_flatMap {α : Type} {script : α → List Step}
    {write : α → Page → Page} (h : ∀ x, Run c (script x) (write x))
    (xs : List α) :
    Run c (xs.flatMap script) (fun p => xs.foldl (fun p x => write x p) p) := by
  induction xs with
  | nil => exact run_nil
  | cons x xs ih => exact (h x).append ih

/-- Attributes are written one behind the other. -/
theorem run_ofSpellings (spellings : List (Attribute × Spelling)) :
    Run c (ofSpellings spellings)
      (fun p => spellings.foldl (fun p x => x.2.write c p) p) := by
  induction spellings with
  | nil => exact run_nil
  | cons x spellings ih =>
    have hfirst : Run c [.spell x.1 x.2] (x.2.write c) := fun _ _ => rfl
    exact hfirst.append ih

end Step

namespace Tagged

open Step

variable {c : Config}

theorem write_spelling (p : Page) {a : Attribute} {name : String}
    (hname : a.name = some name) :
    (spelling c.options a name).write c p = writeAttribute c p a := by
  rw [writeAttribute, hname, spelling]
  dsimp only
  cases (form c.options a name).value with
  | some value => rfl
  | none =>
    dsimp only
    split <;> rfl

theorem foldl_write_spelled {t : Tag} (hname : t.name.isSome = true)
    (p : Page) :
    (spelled c.options t).foldl (fun p x => x.2.write c p) p =
      (t.attributeList.filter isWritten).foldl (writeAttribute c) p := by
  rw [spelled, if_pos hname]
  induction t.attributeList.filter isWritten generalizing p with
  | nil => rfl
  | cons a attributes ih =>
    rw [List.foldl_cons, List.filterMap_cons]
    cases hname : a.name with
    | none =>
      have hnothing : writeAttribute c p a = p := by rw [writeAttribute, hname]
      rw [hnothing]
      exact ih p
    | some name =>
      rw [← write_spelling p hname]
      exact ih _

theorem run_onOwnLinesSteps {steps : List Step} {write : Page → Page}
    (h : Run c steps write) (wanted : Bool) :
    Run c (onOwnLinesSteps wanted steps) (·.onOwnLines c wanted write) := by
  cases wanted with
  | false => exact h
  | true =>
    have hfront := (run_shift 1).append (run_line (c := c))
    exact (hfront.append h).append ((run_shift (-1)).append run_line)

section Content

variable {below : List Step} {writeBelow : Page → Page} (t : Tag)
    (hasChildren : Bool) (hbelow : Run c below writeBelow)

include hbelow

theorem run_contentSteps {value : List Piece → List Step}
    {writeValue : List Piece → Page → Page}
    (hvalue : ∀ v, Run c (value v) (writeValue v)) {otherwise : List Step}
    {writeOtherwise : Page → Page}
    (hotherwise : Run c otherwise writeOtherwise) :
    Run c (contentSteps t hasChildren value below otherwise) (fun p =>
      match wrapAround? c t hasChildren writeBelow p with
      | some p => p
      | none =>
        match t.value with
        | some v => writeBelow (writeValue v p)
        | none => writeOtherwise p) := by
  intro p held
  dsimp only
  rw [contentSteps, wrapAround?_eq]
  cases wrapping? t hasChildren with
  | some parts =>
    obtain ⟨before, behind⟩ := parts
    have hfront : run c [.pieces before, .hold] (p, held) =
        (p.pieces c before, (p.pieces c before).out.line :: held) := rfl
    dsimp only
    rw [run_append, run_append, hfront, hbelow]
    rfl
  | none =>
    cases t.value with
    | some v => exact (hvalue v).append hbelow p held
    | none => exact hotherwise p held

theorem run_elementSteps {rawName : String} (hname : t.name.isSome = true) :
    Run c (elementSteps c.options t rawName hasChildren below)
      (writeElement c t rawName hasChildren writeBelow) := by
  intro p held
  have hfront := (run_string ("<" ++ c.options.tagCase.apply rawName)).append
    (run_ofSpellings (c := c) (spelled c.options t)) p held
  dsimp only at hfront
  rw [foldl_write_spelled hname] at hfront
  rw [elementSteps, writeElement, run_append, hfront]
  dsimp only
  generalize (t.attributeList.filter isWritten).foldl (writeAttribute c) _ = q
  split
  · rfl
  · have hotherwise :
        Run c (if hasChildren then below else caretSteps c.options rawName)
        (fun p => if hasChildren then writeBelow p
          else writeCaret c rawName p) := by
      cases hasChildren with
      | true => exact hbelow
      | false => exact run_onOwnLinesSteps (run_pieces caret) _
    have hvalue : ∀ v,
        Run c (valueSteps c.options v) (writeValue c v) := fun v =>
      run_onOwnLinesSteps (run_pieces v) _
    have hcontent := run_contentSteps t hasChildren hbelow hvalue hotherwise
    exact ((run_string ">").append hcontent).append (run_string _) q held

end Content

theorem run_finishSteps (place : Place) (begins : Bool) :
    Run c (finishSteps place begins) (finish c place begins) := by
  intro p held
  rw [finishSteps, finish]
  split
  · split <;> rfl
  · rfl

mutual

theorem run_nodeSteps (place : Place) (n : Node) :
    Run c (nodeSteps c.options place n) (writeNode c place n) := by
  match n with
  | ⟨tag, children⟩ =>
    have hbelow := run_nodesSteps (some tag) [] children
    intro p held
    rw [nodeSteps, writeNode, beginsLine]
    generalize (beginsLine? c.options place tag (!children.isEmpty)).getD
      _ = begins
    have hline := Run.ite (run_line (c := c)) run_nil (begins = true)
    have hown : Run c
        (match tag.name with
          | some name => elementSteps c.options tag name (!children.isEmpty)
              (nodesSteps c.options (some tag) [] children)
          | none => contentSteps tag (!children.isEmpty) (fun v => [.pieces v])
              (nodesSteps c.options (some tag) [] children) [])
        (fun p => match tag.name with
          | some name => writeElement c tag name (!children.isEmpty)
              (writeNodes c (some tag) [] children) p
          | none => writeText c tag (!children.isEmpty)
              (writeNodes c (some tag) [] children) p) := by
      cases hname : tag.name with
      | some name => exact run_elementSteps tag _ hbelow (by rw [hname]; rfl)
      | none => exact run_contentSteps tag _ hbelow run_pieces run_nil
    exact ((((run_shift _).append hline).append hown).append
      (run_finishSteps place begins)).append (run_shift _) p held

theorem run_nodesSteps (parent : Option Tag) (before : List Tag)
    (ns : List Node) :
    Run c (nodesSteps c.options parent before ns)
      (writeNodes c parent before ns) := by
  match ns with
  | [] => exact fun _ _ => by rw [nodesSteps, writeNodes]; rfl
  | n :: ns =>
    intro p held
    rw [nodesSteps, writeNodes]
    exact (run_nodeSteps _ n).append
      (run_nodesSteps parent (n.tag :: before) ns) p held

end

end Tagged

namespace Outline

open Step

variable {c : Config} (style : OutlineStyle) (t : Tag)

theorem write_spelling (p : Page) (a : Attribute) :
    (spelling c style a).write c p = writeAttribute c style p a := by
  rw [spelling, writeAttribute]
  dsimp only
  split
  · cases style.booleanValue with
    | none => cases c.options.compactBoolean <;> rfl
    | some value => cases c.options.compactBoolean <;> rfl
  · rfl

theorem foldl_write_spelledShorthands (p : Page) :
    (spelledShorthands t).foldl (fun p x => x.2.write c p) p =
      (t.attributeList.filter isShorthand).foldl (writeShorthand c) p := by
  rw [spelledShorthands]
  induction t.attributeList.filter isShorthand generalizing p with
  | nil => rfl
  | cons a attributes ih =>
    rw [List.foldl_cons, List.filterMap_cons, writeShorthand, shorthand?]
    cases a.value with
    | none => exact ih p
    | some value =>
      dsimp only [Option.map_some]
      rw [List.foldl_cons, ih]
      split <;> rfl

/-- Attributes with a separator between them. -/
theorem run_intersperse (attributes : List Attribute) :
    Run c ((ofSpellings (attributes.map fun a =>
      (a, spelling c style a))).intersperse
      (.separator style.betweenAttributes))
        (fun p => writeAttributeList c style p attributes) := by
  have hfirst : ∀ a,
      Run c [.spell a (spelling c style a)] (writeAttribute c style · a) :=
    fun a p held => congrArg (·, held) (write_spelling style p a)
  match attributes with
  | [] => exact fun _ _ => rfl
  | [a] => exact hfirst a
  | a :: b :: attributes =>
    exact ((hfirst a).append (run_separator _)).append
      (run_intersperse (b :: attributes))

theorem run_attributesSteps :
    Run c (attributesSteps style (spelledOthers c style t))
      (writeAttributes c style
        ((t.attributeList.filter (!isShorthand ·)).filter isWritten)) := by
  intro p held
  rw [attributesSteps, spelledOthers, writeAttributes, List.isEmpty_map]
  split
  · rfl
  · exact ((run_separator _).append (run_intersperse style _)).append
      (run_separator _) p held

theorem run_headSteps : Run c (headSteps c style t) (writeHead c style t) := by
  have hname : Run c (nameSteps style t) (fun p =>
      match t.name with
      | some name =>
        if name = "div" ∧ !(t.attributeList.filter isShorthand).isEmpty then p
        else p.string c (style.beforeName ++ name)
      | none => p) := by
    rw [nameSteps]
    cases t.name with
    | some name => exact run_nil.ite (run_string _) _
    | none => exact run_nil
  have hhead := (hname.append (run_ofSpellings (spelledShorthands t))).append
    (run_attributesSteps style t)
  simp only [foldl_write_spelledShorthands] at hhead
  intro p held
  rw [writeHead, List.partition_eq_filter_filter]
  exact hhead p held

theorem run_lineSteps (width : Nat) (line : List Piece) :
    Run c (lineSteps style width line) (writeLine c style width · line) := by
  have hfront := run_line.append (run_nil.ite (run_push (c := c)
    style.beforeTextLine) (style.beforeTextLine.isEmpty = true))
  exact (hfront.append (run_pieces line)).append
    (run_nil.ite ((run_push _).append (run_push _)) _)

theorem run_valueSteps (value : List Piece) :
    Run c (valueSteps style t value) (writeValue c style t value) := by
  have hline : Run c ((if t.isText then [] else [.push " "]) ++ [.pieces value])
      (fun p => (if t.isText then p else p.push c " ").pieces c value) :=
    (run_nil.ite (run_push " ") _).append (run_pieces value)
  intro p held
  rw [valueSteps.eq_def, writeValue.eq_def]
  rcases valueLines value with _ | ⟨first, _ | ⟨next, lines⟩⟩
  · exact hline p held
  · exact hline p held
  · have hlines := run_flatMap (run_lineSteps (c := c) style
      (((first :: next :: lines).map lineLength).foldl max 0))
      (first :: next :: lines)
    exact ((run_shift 1).append hlines).append (run_shift (-1)) p held

mutual

theorem run_nodeSteps (isTop isFirst : Bool) (n : Node) :
    Run c (nodeSteps c style isTop isFirst n)
      (writeNode c style isTop isFirst n) := by
  match n with
  | ⟨tag, children⟩ =>
    have hbelow := run_nodesSteps false true children
    have hvalue : Run c
        (match shownValue c.hooks tag (!children.isEmpty) with
          | some value => valueSteps style tag value
          | none => [])
        (fun p => match shownValue c.hooks tag (!children.isEmpty) with
          | some value => writeValue c style tag value p
          | none => p) := by
      cases shownValue c.hooks tag (!children.isEmpty) with
      | some value => exact run_valueSteps style tag value
      | none => exact run_nil
    have hfront := ((run_shift (if isTop then 0 else 1)).append
      (run_nil.ite run_line (((isTop && isFirst) || tag.isText) = true))).append
      (run_headSteps (c := c) style tag)
    have hrest := (run_string style.selfClosing).ite (hvalue.append hbelow)
      ((tag.selfClosing && tag.value.isNone && children.isEmpty) = true)
    intro p held
    rw [nodeSteps, writeNode]
    exact (hfront.append hrest).append (run_shift _) p held

theorem run_nodesSteps (isTop isFirst : Bool) (ns : List Node) :
    Run c (nodesSteps c style isTop isFirst ns)
      (writeNodes c style isTop isFirst ns) := by
  match ns with
  | [] => exact fun _ _ => by rw [nodesSteps, writeNodes]; rfl
  | n :: ns =>
    intro p held
    rw [nodesSteps, writeNodes]
    exact (run_nodeSteps isTop isFirst n).append
      (run_nodesSteps isTop false ns) p held

end

end Outline

/-! ### All dialects -/

/-- The steps in which a tree is written. -/
def script (c : Config) (nodes : List Node) : List Step :=
  match c.outlineStyle? with
  | some style => Outline.nodesSteps c style true true nodes
  | none => Tagged.nodesSteps c.options none [] nodes

/-- Writing a tree is the run of its script. -/
theorem render_eq_run (c : Config) (nodes : List Node) :
    Node.render c nodes =
      (Step.run c (script c nodes) ({}, [])).1.out.text := by
  rw [script]
  cases hstyle : c.outlineStyle? with
  | some style =>
    rw [Outline.render_of_outlineStyle? hstyle, Outline.page]
    dsimp only
    rw [Outline.run_nodesSteps]
  | none =>
    have tagged : c.dialect.isOutline = false := by
      rw [Config.outlineStyle?] at hstyle
      cases hdialect : c.dialect <;> rw [hdialect] at hstyle <;>
        first | rfl | cases hstyle
    rw [render_of_isOutline_eq_false tagged, Tagged.page]
    dsimp only
    rw [Tagged.run_nodesSteps]

end Scaffold.Markup

import Scaffold.Expansion
import Scaffold.Proofs.Markup.Strokes
import Scaffold.Proofs.Statement.BracedText
/-!
The numbers of fields.  Every writer emits the values of a tree one by one, and
gives each field the index it has in its value, counted from behind the indices
of the values in front.  The sums are kept in one word, so they are exact just
as long as all values together take no more indices than a word can count.  Main
statement: `render_fields`.
-/
namespace Scaffold

namespace Markup

/-! ### Bounds -/

theorem largestIndex_eq_none {value : List Piece}
    (h : largestIndex value = none) : Piece.fields value = [] := by
  induction value with
  | nil => rfl
  | cons x rest ih =>
      cases x with
      | text s => exact ih h
      | field index name =>
          rw [largestIndex] at h
          split at h <;> cases h

theorem le_largestIndex {value : List Piece} {index : Nat} {name : String}
    (hfield : (index, name) ∈ Piece.fields value) {largest : Nat}
    (h : largestIndex value = some largest) : index ≤ largest := by
  induction value generalizing largest with
  | nil => cases hfield
  | cons x rest ih =>
      cases x with
      | text s => exact ih hfield h
      | field index' name' =>
          have hcases : (index, name) = (index', name') ∨
              (index, name) ∈ Piece.fields rest :=
            List.mem_cons.1 hfield
          rw [largestIndex] at h
          cases hrest : largestIndex rest with
          | none =>
              rw [hrest] at h
              rw [largestIndex_eq_none hrest] at hcases
              obtain rfl := Option.some.inj h
              rcases hcases with heq | hin
              · exact Nat.le_of_eq (congrArg Prod.fst heq)
              · cases hin
          | some j =>
              rw [hrest] at h
              obtain rfl := Option.some.inj h
              rcases hcases with heq | hin
              · exact Nat.le_trans (Nat.le_of_eq (congrArg Prod.fst heq))
                  (Nat.le_max_left _ _)
              · exact Nat.le_trans (ih hin hrest) (Nat.le_max_right _ _)

theorem lt_reach {value : List Piece} {index : Nat} {name : String}
    (hfield : (index, name) ∈ Piece.fields value) : index < reach value := by
  rw [reach]
  cases hlargest : largestIndex value with
  | none =>
      rw [largestIndex_eq_none hlargest] at hfield
      cases hfield
  | some largest => exact Nat.lt_succ_of_le (le_largestIndex hfield hlargest)

/-- The largest of all sums is the last base, so all of them have a bound if
that one has it. -/
theorem additions_le_iff {bound base : Nat} (hbase : base ≤ bound)
    (values : List (List Piece)) :
    (∀ sum ∈ additions base values, sum ≤ bound) ↔
    base + totalReach values ≤ bound := by
  induction values generalizing base with
  | nil => simpa [additions, totalReach] using hbase
  | cons value rest ih =>
      rw [additions, valueAdditions, totalReach, List.forall_mem_append,
        List.forall_mem_append]
      cases hlargest : largestIndex value with
      | none =>
          have hreach : reach value = 0 := by rw [reach, hlargest]
          rw [largestIndex_eq_none hlargest, hreach, Nat.add_zero, ih hbase,
            Nat.zero_add]
          simp
      | some largest =>
          have hreach : reach value = largest + 1 := by rw [reach, hlargest]
          rw [hreach, List.forall_mem_cons, List.forall_mem_cons]
          constructor
          · rintro ⟨⟨-, -, hnext, -⟩, hrest⟩
            have hbehind := (ih hnext).1 hrest
            omega
          · intro hall
            have hnext : base + (largest + 1) ≤ bound := by omega
            refine ⟨⟨?_, by omega, hnext, by simp⟩, (ih hnext).2 (by omega)⟩
            intro sum hsum
            obtain ⟨⟨index, name⟩, hfield, rfl⟩ := List.mem_map.1 hsum
            have hle := le_largestIndex hfield hlargest
            dsimp only
            omega

/-! ### What the writers emit -/

namespace Tagged

def attributeValues (o : Options) (a : Attribute) : List (List Piece) :=
  match a.name with
  | none => []
  | some name => (form o a name).value.toList

/-- The values that are written within a node: its own, around or in front of
what is below it, or else what is given. -/
def contentValues (t : Tag) (hasChildren : Bool)
    (below otherwise : List (List Piece)) : List (List Piece) :=
  match if hasChildren then cutAtField? (t.value.getD []) else none with
  | some (before, behind) => before :: (below ++ [behind])
  | none =>
    match t.value with
    | some value => value :: below
    | none => otherwise

/-- The values that are written of an element: those of its attributes, and
those within it. -/
def elementValues (o : Options) (t : Tag) (hasChildren : Bool)
    (below : List (List Piece)) : List (List Piece) :=
  (t.attributeList.filter isWritten).flatMap (attributeValues o) ++
    if t.selfClosing && !hasChildren && t.value.isNone then []
    else contentValues t hasChildren below
      (if hasChildren then below else [caret])

mutual

/-- The values that are written of a node, in the order in which they are
written. -/
def emitted (o : Options) : Node → List (List Piece)
  | ⟨tag, children⟩ =>
    match tag.name with
    | some _ => elementValues o tag (!children.isEmpty) (emittedOf o children)
    | none => contentValues tag (!children.isEmpty) (emittedOf o children) []

def emittedOf (o : Options) : List Node → List (List Piece)
  | [] => []
  | n :: ns => emitted o n ++ emittedOf o ns

end

section

variable {c : Config} {empty : Bool}

theorem draws_writeAttribute (a : Attribute) :
    Draws empty (fun field p => writeAttribute (c.withField field) p a)
      (attributeValues c.options a) := by
  cases hname : a.name with
  | none =>
      simp only [writeAttribute, attributeValues, hname]
      exact .nothing empty
  | some name =>
      have hfront := draws_string c empty (" " ++ (form c.options a name).name)
      simp only [writeAttribute, attributeValues, hname,
        Config.options_withField]
      cases hvalue : (form c.options a name).value with
      | some value =>
          have hopen :=
            draws_string c empty ("=" ++ (form c.options a name).quotes.1)
          have hclose := draws_string c empty (form c.options a name).quotes.2
          exact hfront.behind
            (hopen.behind ((draws_pieces c empty value).inFront hclose))
      | none =>
          by_cases hhtml : c.options.selfClosing = .html
          · simp only [hhtml, if_true]
            exact hfront
          · simp only [hhtml, if_false]
            exact hfront.behind (draws_string c empty ("=" ++ (form c.options a
              name).quotes.1 ++ (form c.options a name).quotes.2))

theorem draws_writeValue (value : List Piece) :
    Draws empty (fun field p => writeValue (c.withField field) value p)
      [value] :=
  Draws.onOwnLines (c := c) (draws_pieces c empty value)
    (value.any spansLines || beginsWithBlock c.options value)

theorem draws_writeCaret (name : String) :
    Draws empty (fun field p => writeCaret (c.withField field) name p)
      [caret] :=
  Draws.onOwnLines (c := c) (draws_pieces c empty caret)
    (c.options.formatLeafNode || Options.lists c.options.formatForce name)

theorem draws_writeBehind (brokeLine : Bool) (behind : List Piece) :
    Draws empty (fun field p =>
      writeBehind (c.withField field) brokeLine behind p) [behind] := by
  match brokeLine, behind with
  | true, .text s :: rest =>
      have htext :=
        draws_string c empty (String.ofList (Text.dropBlanks s.toList))
      simp only [writeBehind]
      split
      · next hempty =>
          obtain rfl := List.isEmpty_iff.1 hempty
          exact htext.renumber (fun _ => rfl) (fun _ => rfl) rfl
      · exact (htext.behind (draws_pieces c empty rest)).renumber (fun _ => rfl)
          (fun _ => rfl) rfl
  | true, [] =>
      exact (Draws.nothing empty).renumber (fun _ => rfl) (fun _ => rfl) rfl
  | false, [] =>
      exact (Draws.nothing empty).renumber (fun _ => rfl) (fun _ => rfl) rfl
  | true, .field index name :: rest => exact draws_pieces c empty _
  | false, x :: rest => exact draws_pieces c empty _

variable {below : Writer} {values : List (List Piece)}

/-- Whether the nodes broke the line can be seen from what they draw. -/
theorem draws_around (hbelow : Draws empty below values) (behind : List Piece) :
    Draws empty (fun field p => writeBehind (c.withField field)
        ((below field p).out.line != p.out.line) behind (below field p))
      (values ++ [behind]) := by
  intro level base
  obtain ⟨strokes, lines, hfields, hwrite⟩ := hbelow level base
  have hrest : Draws empty
      (fun field p => writeBehind (c.withField field) (lines != 0) behind p)
        [behind] :=
    draws_writeBehind (lines != 0) behind
  obtain ⟨strokes', lines', hfields', hwrite'⟩ :=
    hrest level (base + totalReach values)
  refine ⟨strokes ++ strokes', lines + lines', ?_, ?_⟩
  · rw [Piece.fields_append, hfields, hfields', numbered_append]
  · intro field hempty p hlevel hbase
    obtain ⟨hgains, hcounts⟩ := hwrite field hempty p hlevel hbase
    have hbroke : ((below field p).out.line != p.out.line) = (lines != 0) := by
      rw [hgains.line, Bool.eq_iff_iff, bne_iff_ne, bne_iff_ne]
      omega
    obtain ⟨hgains', hcounts'⟩ := hwrite' field hempty (below field p)
      (hgains.level.trans hlevel) (by rw [hcounts.base, hbase])
    dsimp only
    rw [hbroke]
    exact ⟨hgains.trans hgains', hcounts.trans hcounts'⟩

/-- What is within a node, around or behind its own value. -/
theorem draws_content (t : Tag) (hasChildren : Bool)
    (hbelow : Draws empty below values)
    (value : List Piece → Writer) (hvalue : ∀ v, Draws empty (value v) [v])
    {otherwise : Writer}
    {others : List (List Piece)} (hotherwise : Draws empty otherwise others) :
    Draws empty (fun field p =>
        match wrapAround? (c.withField field) t hasChildren (below field) p with
        | some p => p
        | none =>
          match t.value with
          | some v => below field (value v field p)
          | none => otherwise field p)
      (contentValues t hasChildren values others) := by
  have hvalues : Draws empty (fun field p =>
      match t.value with
      | some v => below field (value v field p)
      | none => otherwise field p)
      (match t.value with
        | some v => v :: values
        | none => others) := by
    cases t.value with
    | some v => exact (hvalue v).append hbelow
    | none => exact hotherwise
  cases hasChildren with
  | false => exact hvalues
  | true =>
      cases hcut : cutAtField? (t.value.getD []) with
      | none =>
          simp only [wrapAround?, contentValues, hcut, Bool.not_true,
            Bool.false_eq_true, if_false, if_true]
          exact hvalues
      | some cut =>
          obtain ⟨before, behind⟩ := cut
          have hall := (draws_pieces c empty before).append
            (draws_around (c := c) hbelow behind)
          simp only [wrapAround?, contentValues, hcut, Bool.not_true,
            Bool.false_eq_true, if_false, if_true]
          exact hall

theorem draws_writeElement (t : Tag) (rawName : String) (hasChildren : Bool)
    (hbelow : Draws empty below values) :
    Draws empty (fun field p =>
        writeElement (c.withField field) t rawName hasChildren (below field) p)
      (elementValues c.options t hasChildren values) := by
  have hopen := draws_string c empty ("<" ++ c.options.tagCase.apply rawName)
  have hattributes : Draws empty (fun field p =>
      (t.attributeList.filter isWritten).foldl
        (writeAttribute (c.withField field)) p)
      ((t.attributeList.filter isWritten).flatMap
        (attributeValues c.options)) :=
    .foldl draws_writeAttribute _
  have hhead := hopen.behind hattributes
  have hotherwise : Draws empty
      (fun field p => if hasChildren then below field p
        else writeCaret (c.withField field) rawName p)
      (if hasChildren then values else [caret]) := by
    cases hasChildren with
    | true => exact hbelow
    | false => exact draws_writeCaret rawName
  have hcontent := draws_content (c := c) t hasChildren hbelow
    (fun v field => writeValue (c.withField field) v) draws_writeValue
      hotherwise
  have hclose :=
    draws_string c empty ("</" ++ c.options.tagCase.apply rawName ++ ">")
  have hend :=
    draws_string c empty (selfClosingMark c.options.selfClosing ++ ">")
  rw [elementValues]
  cases hclosing : t.selfClosing && !hasChildren && t.value.isNone with
  | true =>
      simp only [writeElement, hclosing, if_true, Config.options_withField]
      exact hhead.append hend
  | false =>
      simp only [writeElement, hclosing, Bool.false_eq_true, if_false,
        Config.options_withField]
      exact hhead.append
        (((draws_string c empty ">").behind hcontent).inFront hclose)

theorem draws_finish (place : Place) (begins : Bool) :
    Draws empty (fun field p => finish (c.withField field) place begins p)
      [] := by
  cases hends : begins && place.after.isEmpty && place.parent.isSome with
  | true =>
      simp only [finish, hends, if_true]
      exact draws_newline c empty (· - if isTextTag place.parent then 0 else 1)
  | false =>
      simp only [finish, hends, Bool.false_eq_true, if_false]
      exact .nothing empty

mutual

theorem draws_writeNode (place : Place) (n : Node) :
    Draws empty (fun field => writeNode (c.withField field) place n)
      (emitted c.options n) := by
  match n with
  | ⟨tag, children⟩ =>
      have hbelow := draws_writeNodes (some tag) [] children
      have hnode : Draws empty (fun field p => match tag.name with
          | some name =>
              writeElement (c.withField field) tag name (!children.isEmpty)
                (writeNodes (c.withField field) (some tag) [] children) p
          | none =>
              writeText (c.withField field) tag (!children.isEmpty)
                (writeNodes (c.withField field) (some tag) [] children) p)
          (emitted c.options ⟨tag, children⟩) := by
        rw [emitted]
        cases tag.name with
        | some name => exact draws_writeElement tag name _ hbelow
        | none =>
            exact draws_content (c := c) tag _ hbelow
              (fun v field p => p.pieces (c.withField field) v)
              (draws_pieces c empty) (.nothing empty)
      have hline : Draws empty (fun field p =>
          if (beginsLine? c.options place tag (!children.isEmpty)).getD
              (anyBeginsLine c.options tag [] children) then
                p.freshLine (c.withField field)
          else p) [] := by
        split
        · exact draws_freshLine c empty
        · exact .nothing empty
      simp only [writeNode]
      exact ((hline.behind hnode).inFront (draws_finish (c := c) place
        ((beginsLine? c.options place tag (!children.isEmpty)).getD
          (anyBeginsLine c.options tag [] children)))).shift
        (indentStep c.options place.parent)

/-- Writing nodes numbers the fields of what they emit. -/
theorem draws_writeNodes (parent : Option Tag) (before : List Tag)
    (ns : List Node) :
    Draws empty (fun field => writeNodes (c.withField field) parent before ns)
      (emittedOf c.options ns) := by
  match ns with
  | [] =>
      simp only [writeNodes]
      exact .nothing empty
  | n :: ns =>
      simp only [writeNodes]
      exact (draws_writeNode _ n).append (draws_writeNodes parent _ ns)

end

end

end Tagged

namespace Outline

/-- The value that is written of an attribute, if it is not one that does
without. -/
def attributeValues (o : Options) (a : Attribute) : List (List Piece) :=
  if isBoolean o a && a.value.isNone then [] else [a.value.getD caret]

def headValues (o : Options) (t : Tag) : List (List Piece) :=
  (t.attributeList.filter isShorthand).flatMap (·.value.toList) ++
    ((t.attributeList.filter (!isShorthand ·)).filter isWritten).flatMap
      (attributeValues o)

/-- A value as it is written: each of several lines is a value of its own. -/
def lineValues (value : List Piece) : List (List Piece) :=
  match valueLines value with
  | [] | [_] => [value]
  | several => several

mutual

/-- The values that are written of a node, in the order in which they are
written. -/
def emitted (c : Config) : Node → List (List Piece)
  | ⟨tag, children⟩ =>
    headValues c.options tag ++
      if tag.selfClosing && tag.value.isNone && children.isEmpty then []
      else
        (match shownValue c.hooks tag (!children.isEmpty) with
          | some value => lineValues value
          | none => []) ++ emittedOf c children

def emittedOf (c : Config) : List Node → List (List Piece)
  | [] => []
  | n :: ns => emitted c n ++ emittedOf c ns

end

theorem fields_map_dotted (value : List Piece) :
    Piece.fields (value.map dotted) = Piece.fields value := by
  induction value with
  | nil => rfl
  | cons x rest ih =>
      cases x with
      | text s => exact ih
      | field index name => exact congrArg ((index, name) :: ·) ih

theorem largestIndex_map_dotted (value : List Piece) :
    largestIndex (value.map dotted) = largestIndex value := by
  induction value with
  | nil => rfl
  | cons x rest ih =>
      cases x with
      | text s => exact ih
      | field index name =>
          rw [List.map_cons, dotted, largestIndex, largestIndex, ih]

theorem reach_map_dotted (value : List Piece) :
    reach (value.map dotted) = reach value := by
  rw [reach, reach, largestIndex_map_dotted]

theorem valueAdditions_map_dotted (base : Nat) (value : List Piece) :
    valueAdditions base (value.map dotted) = valueAdditions base value := by
  rw [valueAdditions, valueAdditions, fields_map_dotted,
    largestIndex_map_dotted]

section

variable {c : Config} {empty : Bool} {style : OutlineStyle}

theorem draws_writeShorthand (a : Attribute) :
    Draws empty (fun field p => writeShorthand (c.withField field) p a)
      a.value.toList := by
  cases hvalue : a.value with
  | none =>
      simp only [writeShorthand, hvalue]
      exact .nothing empty
  | some value =>
      cases hclass : a.hasName "class" with
      | true =>
          have hdotted : Draws empty
              (fun field p => (p.string (c.withField field) ".").pieces
                (c.withField field) (value.map dotted)) [value.map dotted] :=
            (draws_string c empty ".").behind
              (draws_pieces c empty (value.map dotted))
          simp only [writeShorthand, hvalue, hclass, if_true,
            Option.toList_some]
          refine hdotted.renumber (fun base => ?_) (fun base => ?_) ?_
          · simp only [numbered, fields_map_dotted]
          · simp only [additions, valueAdditions_map_dotted]
          · simp only [totalReach, reach_map_dotted]
      | false =>
          simp only [writeShorthand, hvalue, hclass,
            Bool.false_eq_true, if_false]
          exact (draws_string c empty "#").behind (draws_pieces c empty value)

theorem draws_writeAttribute (a : Attribute) :
    Draws empty (fun field p => writeAttribute (c.withField field) style p a)
      (attributeValues c.options a) := by
  have hname :=
    draws_string c empty (c.options.attributeCase.apply (a.name.getD ""))
  cases hbare : isBoolean c.options a && a.value.isNone with
  | true =>
      simp only [writeAttribute, attributeValues, Config.options_withField,
        hbare, if_true]
      cases style.booleanValue with
      | none => exact hname
      | some value =>
          by_cases hcompact : c.options.compactBoolean = true
          · simp only [hcompact, if_true]
            exact hname
          · simp only [hcompact]
            exact hname.behind (draws_string c empty ("=" ++ value))
  | false =>
      simp only [writeAttribute, attributeValues, Config.options_withField,
        hbare, Bool.false_eq_true, if_false]
      exact hname.behind ((draws_string c empty ("=" ++ (quotes c.options
        a).1)).behind ((draws_pieces c empty (a.value.getD caret)).inFront
          (draws_string c empty (quotes c.options a).2)))

theorem draws_writeAttributeList (attributes : List Attribute) :
    Draws empty
      (fun field p => writeAttributeList (c.withField field) style p attributes)
      (attributes.flatMap (attributeValues c.options)) := by
  match attributes with
  | [] => exact .nothing empty
  | [a] =>
      rw [List.flatMap_singleton]
      exact draws_writeAttribute a
  | a :: b :: rest =>
      have hbetween := draws_string c empty style.betweenAttributes
      have hrest := draws_writeAttributeList (b :: rest)
      exact ((draws_writeAttribute a).inFront hbetween).append hrest

theorem draws_writeHead (t : Tag) :
    Draws empty (fun field p => writeHead (c.withField field) style t p)
      (headValues c.options t) := by
  have hname : Draws empty (fun field p =>
      match t.name with
      | some name =>
        if name = "div" ∧ !(t.attributeList.filter isShorthand).isEmpty then p
        else p.string (c.withField field) (style.beforeName ++ name)
      | none => p) [] := by
    cases t.name with
    | none => exact .nothing empty
    | some name =>
        dsimp only
        split
        · exact .nothing empty
        · exact draws_string c empty (style.beforeName ++ name)
  have hshorthands : Draws empty (fun field p =>
      (t.attributeList.filter isShorthand).foldl
        (writeShorthand (c.withField field)) p)
      ((t.attributeList.filter isShorthand).flatMap (·.value.toList)) :=
    .foldl draws_writeShorthand _
  have hattributes : ∀ attributes : List Attribute,
      Draws empty
        (fun field p => writeAttributes (c.withField field) style attributes p)
        (attributes.flatMap (attributeValues c.options)) := by
    intro attributes
    cases attributes with
    | nil => exact .nothing empty
    | cons a rest =>
        exact (draws_string c empty style.beforeAttributes).behind
          ((draws_writeAttributeList (a :: rest)).inFront
            (draws_string c empty style.afterAttributes))
  have hhead := (hname.behind hshorthands).append
    (hattributes ((t.attributeList.filter (!isShorthand ·)).filter isWritten))
  simp only [writeHead, List.partition_eq_filter_filter]
  exact hhead

theorem draws_writeLine (width : Nat) (line : List Piece) :
    Draws empty (fun field p =>
      writeLine (c.withField field) style width p line) [line] := by
  have hmark :
      Draws empty (fun field p => if style.beforeTextLine.isEmpty then p
      else p.push (c.withField field) style.beforeTextLine) [] := by
    split
    · exact .nothing empty
    · exact draws_push c empty style.beforeTextLine
  have hline :=
    ((draws_freshLine c empty).behind hmark).behind (draws_pieces c empty line)
  simp only [writeLine]
  cases style.afterTextLine.isEmpty with
  | true => exact hline
  | false =>
      exact hline.inFront ((draws_push c empty
        (String.ofList (List.replicate (width - lineLength line) ' '))).behind
        (draws_push c empty style.afterTextLine))

theorem draws_writeValue (t : Tag) (value : List Piece) :
    Draws empty (fun field p => writeValue (c.withField field) style t value p)
      (lineValues value) := by
  have hone : Draws empty (fun field p =>
      (if t.isText then p else p.push (c.withField field) " ").pieces
        (c.withField field) value)
      [value] := by
    cases t.isText with
    | true => exact draws_pieces c empty value
    | false =>
        exact (draws_push c empty " ").behind (draws_pieces c empty value)
  have hseveral : ∀ several : List (List Piece), Draws empty (fun field p =>
      (several.foldl (writeLine (c.withField field) style
        ((several.map lineLength).foldl max 0))
          (p.shift 1)).shift (-1)) several := by
    intro several
    have hlines : Draws empty
        (fun field p => several.foldl (writeLine (c.withField field) style
          ((several.map lineLength).foldl max 0)) p)
        (several.flatMap ([·])) :=
      .foldl (draws_writeLine _) several
    rw [List.flatMap_singleton'] at hlines
    exact hlines.shift 1
  match hlines : valueLines value with
  | [] => simpa only [writeValue, lineValues, hlines] using hone
  | [_] => simpa only [writeValue, lineValues, hlines] using hone
  | first :: second :: rest =>
      simpa only [writeValue, lineValues, hlines]
        using hseveral (first :: second :: rest)

end

section

variable {c : Config} {style : OutlineStyle}

mutual

theorem draws_writeNode (isTop isFirst : Bool) (n : Node) :
    Draws (caretIsEmpty c.hooks)
      (fun field => writeNode (c.withField field) style isTop isFirst n)
        (emitted c n) := by
  match n with
  | ⟨tag, children⟩ =>
      have hbelow := draws_writeNodes false true children
      have hline : Draws (caretIsEmpty c.hooks) (fun field p =>
          if (isTop && isFirst) || tag.isText then p
          else p.freshLine (c.withField field)) [] := by
        split
        · exact .nothing _
        · exact draws_freshLine c _
      have hvalue : Draws (caretIsEmpty c.hooks) (fun field p =>
          match shownValue (c.withField field).hooks tag
            (!children.isEmpty) with
          | some value => writeValue (c.withField field) style tag value p
          | none => p)
          (match shownValue c.hooks tag (!children.isEmpty) with
            | some value => lineValues value
            | none => []) := by
        have hshown : Draws (caretIsEmpty c.hooks) (fun field p =>
            match shownValue c.hooks tag (!children.isEmpty) with
            | some value => writeValue (c.withField field) style tag value p
            | none => p)
            (match shownValue c.hooks tag (!children.isEmpty) with
              | some value => lineValues value
              | none => []) := by
          cases shownValue c.hooks tag (!children.isEmpty) with
          | some value => exact draws_writeValue tag value
          | none => exact .nothing _
        refine hshown.congr fun field hempty => ?_
        have hcaret : caretIsEmpty (c.withField field).hooks =
            caretIsEmpty c.hooks := hempty
        simp only [shownValue, hcaret]
      have hrest : Draws (caretIsEmpty c.hooks) (fun field p =>
          if tag.selfClosing && tag.value.isNone && children.isEmpty then
            p.string (c.withField field) style.selfClosing
          else writeNodes (c.withField field) style false true children
            (match shownValue (c.withField field).hooks tag
              (!children.isEmpty) with
              | some value => writeValue (c.withField field) style tag value p
              | none => p))
          (if tag.selfClosing && tag.value.isNone && children.isEmpty then []
            else (match shownValue c.hooks tag (!children.isEmpty) with
              | some value => lineValues value
              | none => []) ++ emittedOf c children) := by
        split
        · exact draws_string c _ style.selfClosing
        · exact hvalue.append hbelow
      simp only [writeNode, emitted]
      exact (hline.behind ((draws_writeHead tag).append hrest)).shift
        (if isTop then 0 else 1)

/-- Writing an outline numbers the fields of what it emits. -/
theorem draws_writeNodes (isTop isFirst : Bool) (ns : List Node) :
    Draws (caretIsEmpty c.hooks)
      (fun field => writeNodes (c.withField field) style isTop isFirst ns)
        (emittedOf c ns) := by
  match ns with
  | [] =>
      simp only [writeNodes]
      exact .nothing _
  | n :: ns =>
      simp only [writeNodes]
      exact (draws_writeNode isTop isFirst n).append
        (draws_writeNodes isTop false ns)

end

end

end Outline

end Markup

/-- The values that the writer of the configured dialect emits for a tree, in
their order. -/
def Node.emittedOf (c : Config) (nodes : List Node) : List (List Piece) :=
  match c.dialect with
  | .pug | .haml | .slim => Markup.Outline.emittedOf c nodes
  | .html | .xhtml | .xml | .xsl | .jsx =>
      Markup.Tagged.emittedOf c.options nodes

open Markup

theorem draws_page (c : Config) (nodes : List Node) :
    ∃ strokes, Piece.fields strokes = numbered 0 (Node.emittedOf c nodes) ∧
      ∀ field : Nat → String → String, (field 0 "").isEmpty =
        caretIsEmpty c.hooks →
        Node.render (c.withField field) nodes = inked field strokes ∧
          ((Node.page (c.withField field) nodes).fits = true ↔
            ∀ sum ∈ additions 0 (Node.emittedOf c nodes),
              sum ≤ Numeral.wordMax) := by
  have hpage : ∃ write : Writer,
      Draws (caretIsEmpty c.hooks) write (Node.emittedOf c nodes) ∧
      ∀ field, Node.page (c.withField field) nodes = write field {} := by
    have hsame : ∀ field, (c.withField field).dialect = c.dialect :=
      fun _ => rfl
    have houtline : ∀ style : OutlineStyle, Draws (caretIsEmpty c.hooks)
        (fun field =>
          Outline.writeNodes (c.withField field) style true true nodes)
        (Outline.emittedOf c nodes) :=
          fun _ => Outline.draws_writeNodes true true nodes
    have htagged : Draws (caretIsEmpty c.hooks)
        (fun field => Tagged.writeNodes (c.withField field) none [] nodes)
        (Tagged.emittedOf c.options nodes) :=
          Tagged.draws_writeNodes none [] nodes
    simp only [Node.emittedOf, Node.page, hsame]
    cases c.dialect with
    | pug => exact ⟨_, houtline (.pug c.options), fun _ => rfl⟩
    | haml => exact ⟨_, houtline .haml, fun _ => rfl⟩
    | slim => exact ⟨_, houtline .slim, fun _ => rfl⟩
    | html | xhtml | xml | xsl | jsx => exact ⟨_, htagged, fun _ => rfl⟩
  obtain ⟨write, hdraws, hwritten⟩ := hpage
  obtain ⟨strokes, lines, hfields, hwrite⟩ := hdraws 0 0
  refine ⟨strokes, hfields, ?_⟩
  intro field hempty
  obtain ⟨hgains, hcounts⟩ := hwrite field hempty {} rfl rfl
  rw [Node.render, hwritten]
  refine ⟨?_, ?_⟩
  · rw [hgains.text]
    exact String.empty_append
  · rw [hcounts.fits]
    exact and_iff_right rfl

/-- Every field that is written has its own index added to the indices that the
values in front take, exactly.  The program gets to the end of the markup as
long as all these values take no more indices than a word can count, which is
just when every sum on the way fits a word; otherwise it stops without any. -/
theorem render_fields (c : Config) (nodes : List Node) :
    ∃ strokes : List Piece,
      Piece.fields strokes = numbered 0 (Node.emittedOf c nodes) ∧
      (∀ field : Nat → String → String, (field 0 "").isEmpty =
        caretIsEmpty c.hooks →
        Node.render (c.withField field) nodes = inked field strokes ∧
        Node.render? (c.withField field) nodes =
          if totalReach (Node.emittedOf c nodes) ≤ Numeral.wordMax then
            some (inked field strokes)
          else none) ∧
      ((∀ sum ∈ additions 0 (Node.emittedOf c nodes), sum ≤ Numeral.wordMax) ↔
        totalReach (Node.emittedOf c nodes) ≤ Numeral.wordMax) := by
  obtain ⟨strokes, hfields, hpage⟩ := draws_page c nodes
  have hsums :=
    additions_le_iff (Nat.zero_le Numeral.wordMax) (Node.emittedOf c nodes)
  rw [Nat.zero_add] at hsums
  refine ⟨strokes, hfields, ?_, hsums⟩
  intro field hempty
  obtain ⟨hrender, hfits⟩ := hpage field hempty
  refine ⟨hrender, ?_⟩
  rw [Node.render?, hrender]
  exact if_congr (hfits.trans hsums) rfl rfl

namespace FieldNumbersWitness

/-- No snippets, and fields that are written as tab stops. -/
def config : Config :=
  { snippets := {}
    hooks :=
      { field := fun index _ => "$\x7b" ++ Numeral.text index ++ "\x7d" } }

/-- A field whose index is as large as a word can count, and an empty element
behind it. -/
def source : String := "p\x7b$\x7b18446744073709551615\x7d\x7d+p"

def tokens : List Token :=
  [⟨.literal "p", 0, 1⟩, ⟨.bracket .expression true, 1, 2⟩,
    ⟨.field (some 18446744073709551615) "", 2, 25⟩,
    ⟨.bracket .expression false, 25, 26⟩, ⟨.operator .sibling, 26, 27⟩,
    ⟨.literal "p", 27, 28⟩]

/-- The tree of the source. -/
def paragraphs : List Node :=
  [⟨{ name := some "p", value := some [.field 18446744073709551615 ""] }, []⟩,
    ⟨{ name := some "p" }, []⟩]

theorem tokenize_source : tokenize source = .ok tokens := by
  have hfield : Lexer.lexeme? (Lexer.within 0) (some '{') 2
      "$\x7b18446744073709551615\x7d\x7d+p".toList =
      .ok (some {
        kind := .field (some 18446744073709551615) "", length := 23
        context := Lexer.within 0 }) := rfl
  have hclose : Lexer.lexeme? (Lexer.within 0) (some '}') 25 "\x7d+p".toList =
      .ok (some { kind := .bracket .expression false, length := 1,
                  context := {} }) := rfl
  have hnext : Lexer.lexeme? {} (some '}') 26 "+p".toList =
      .ok (some { kind := .operator .sibling, length := 1, context := {} }) :=
    rfl
  have hname : Lexer.lexeme? {} (some '+') 27 "p".toList =
      .ok (some { kind := .literal "p", length := 1, context := {} }) := rfl
  have hend : Lexer.tokensFrom {} (some 'p') 28 [] = .ok [] := by
    rw [Lexer.tokensFrom]
    rfl
  exact Lexer.tokensFrom_name (Lexer.tokensFrom_of_lexeme? (by simp) hfield
    (Lexer.tokensFrom_of_lexeme? (by simp) hclose (Lexer.tokensFrom_of_lexeme?
        (by simp) hnext (Lexer.tokensFrom_of_lexeme? (by simp) hname hend))))

theorem tree_source :
    Expansion.tree config source = .ok ⟨paragraphs, [], 0⟩ := by
  rw [Expansion.tree, Expansion.resolve, Node.ofSource?, tokenize_source,
    config, paragraphs]
  cbv

/-- The tree is read, but the number behind the largest one stops the program:
the second field would be one more than a word can count. -/
theorem expand_overflows :
    Expansion.tree config source = .ok ⟨paragraphs, [], 0⟩ ∧
      expand? config source = none ∧
      numbered 0 (Node.emittedOf config paragraphs) =
        [(18446744073709551615, ""), (18446744073709551616, "")] ∧
      ¬ totalReach (Node.emittedOf config paragraphs) ≤ Numeral.wordMax := by
  have hrender : Node.render? config paragraphs = none := by decide +kernel
  refine ⟨tree_source, ?_, by decide, by decide⟩
  rw [expand?, tree_source]
  exact congrArg (Option.map _) hrender

end FieldNumbersWitness

end Scaffold

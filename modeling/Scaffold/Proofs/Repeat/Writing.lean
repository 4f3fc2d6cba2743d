import Scaffold.Expansion
import Scaffold.Proofs.Repeat.Refinement
/-!
Trees that are alike are written in the same way.  The writers read nothing of
the mark on a copy; an empty text writes nothing, and where it stands instead of
the place for a reader, that place is empty too, only fields behind it are
counted from elsewhere.  Main statement: `render_eq`.
-/
namespace Scaffold.Markup

/-- The same text so far; the fields to come may be counted from elsewhere where
that does not show. -/
structure Page.Agrees (c : Config) (p q : Page) : Prop where
  out : p.out = q.out
  base : c.hooks = {} ∨ p.fieldBase = q.fieldBase

namespace Page.Agrees

variable {c : Config} {p q : Page}

theorem refl (p : Page) : p.Agrees c p := ⟨rfl, .inr rfl⟩

theorem shift (h : p.Agrees c q) (n : Int) : (p.shift n).Agrees c (q.shift n) :=
  ⟨congrArg (·.shift n) h.out, h.base⟩

theorem string (h : p.Agrees c q) (s : String) :
    (p.string c s).Agrees c (q.string c s) :=
  ⟨congrArg (·.string c.options c.hooks s) h.out, h.base⟩

theorem newline (h : p.Agrees c q) (n : Int) :
    (p.newline c n).Agrees c (q.newline c n) :=
  ⟨congrArg (·.newline c.options n) h.out, h.base⟩

theorem freshLine (h : p.Agrees c q) :
    (p.freshLine c).Agrees c (q.freshLine c) := by
  rw [Page.freshLine, Page.freshLine, h.out]
  exact h.newline _

theorem piece (h : p.Agrees c q) (x : Piece) :
    (p.piece c x).Agrees c (q.piece c x) := by
  cases x with
  | text s => exact h.string s
  | field index name =>
      refine ⟨?_, h.base⟩
      rcases h.base with hhooks | hbase
      · simp only [Page.piece, Output.field, h.out, hhooks]
      · simp only [Page.piece, h.out, hbase]

theorem foldl {α : Type} {write : Page → α → Page}
    (hwrite : ∀ (p q : Page) (x : α), p.Agrees c q →
      (write p x).Agrees c (write q x)) (h : p.Agrees c q) (xs : List α) :
    (xs.foldl write p).Agrees c (xs.foldl write q) := by
  induction xs generalizing p q with
  | nil => exact h
  | cons x xs ih => exact ih (hwrite p q x h)

theorem pieces (h : p.Agrees c q) (ps : List Piece) :
    (p.pieces c ps).Agrees c (q.pieces c ps) := by
  have hfold : (ps.foldl (Page.piece c) p).Agrees c
      (ps.foldl (Page.piece c) q) :=
    h.foldl (fun _ _ x hpq => hpq.piece x) ps
  rw [Page.pieces, Page.pieces]
  cases largestIndex ps with
  | none => exact hfold
  | some largest =>
      exact ⟨hfold.out, hfold.base.imp_right (congrArg (· + (largest + 1)))⟩

theorem onOwnLines (h : p.Agrees c q) (wanted : Bool)
    {write write' : Page → Page}
    (hwrite : ∀ p q : Page, p.Agrees c q → (write p).Agrees c (write' q)) :
    (p.onOwnLines c wanted write).Agrees c (q.onOwnLines c wanted write') := by
  rw [Page.onOwnLines, Page.onOwnLines]
  split
  · exact ((hwrite _ _ (h.shift 1).freshLine).shift (-1)).freshLine
  · exact hwrite p q h

/-! ### Where texts are written as they are -/

variable (hooks : c.hooks = {})

include hooks

theorem string_empty (h : p.Agrees c q) : (p.string c "").Agrees c q := by
  refine ⟨?_, .inl hooks⟩
  have hlines : Text.lines "" = [""] := rfl
  rw [← h.out]
  simp [Page.string, Output.string, hlines, Output.lines, Output.push,
    Output.raw, hooks]

/-- An empty text behind pieces writes nothing. -/
theorem pieces_concat_empty (h : p.Agrees c q) (ps : List Piece) :
    (p.pieces c (ps ++ [.text ""])).Agrees c (q.pieces c ps) := by
  have hfold : ((ps ++ [Piece.text ""]).foldl (Page.piece c) p).Agrees c
      (ps.foldl (Page.piece c) q) := by
    rw [List.foldl_append]
    exact (h.foldl (fun _ _ x hpq => hpq.piece x) ps).string_empty hooks
  have hout : ∀ (p : Page) (ps : List Piece),
      (p.pieces c ps).out = (ps.foldl (Page.piece c) p).out := by
    intro p ps
    rw [Page.pieces]
    cases largestIndex ps <;> rfl
  exact ⟨by rw [hout, hout, hfold.out], .inl hooks⟩

/-- The place for a reader is empty. -/
theorem pieces_caret (h : p.Agrees c q) : p.Agrees c (q.pieces c caret) := by
  refine ⟨?_, .inl hooks⟩
  rw [h.out]
  simp [Page.pieces, caret, largestIndex, Page.piece, Output.field,
    Output.raw, hooks]

end Page.Agrees

namespace Tagged

variable {c : Config} {t u : Tag} {p q : Page}

/-! ### Places -/

/-- The tags around two nodes are alike. -/
structure Place.Alike (free : Tag → Prop) (place place' : Place) : Prop where
  parent : Option.Rel (Tag.Alike free) place.parent place'.parent
  before : List.Forall₂ (Tag.Alike free) place.before place'.before
  after : List.Forall₂ (Tag.Alike free) place.after place'.after

theorem isInline_eq (h : t.Alike (Tag.HidesEmpty c) u) :
    isInline c.options t = isInline c.options u := by
  rw [isInline, isInline, h.name, h.attributes]
  cases hname : u.name with
  | some name => rfl
  | none =>
      rcases h.value with heq | ⟨⟨-, hsome | ⟨-, -, name, hnamed, -⟩⟩, heq⟩
      · rw [heq]
      · rw [heq, hsome, Option.isSome_some]
      · rw [hname] at hnamed
        cases hnamed

theorem isInlineElement_eq {free : Tag → Prop} (o : Options)
    (h : t.Alike free u) : isInlineElement o t = isInlineElement o u := by
  rw [isInlineElement, isInlineElement, h.name]

theorem isTextTag_eq {free : Tag → Prop} {x y : Option Tag}
    (h : Option.Rel (Tag.Alike free) x y) : isTextTag x = isTextTag y := by
  cases h with
  | none => rfl
  | some h => exact h.isText

theorem rel_head? {free : Tag → Prop} {ts us : List Tag}
    (h : List.Forall₂ (Tag.Alike free) ts us) :
    Option.Rel (Tag.Alike free) ts.head? us.head? := by
  cases h with
  | nil => exact .none
  | cons h _ => exact .some h

theorem isEmpty_eq {free : Tag → Prop} {ts us : List Tag}
    (h : List.Forall₂ (Tag.Alike free) ts us) : ts.isEmpty = us.isEmpty := by
  cases h <;> rfl

theorem isNone_eq {free : Tag → Prop} {x y : Option Tag}
    (h : Option.Rel (Tag.Alike free) x y) : x.isNone = y.isNone := by
  cases h <;> rfl

theorem any_eq {free : Tag → Prop} {test : Tag → Bool}
    (htest : ∀ t u : Tag, t.Alike free u → test t = test u) {ts us : List Tag}
    (h : List.Forall₂ (Tag.Alike free) ts us) : ts.any test = us.any test := by
  induction h with
  | nil => rfl
  | cons h _ ih => rw [List.any_cons, List.any_cons, htest _ _ h, ih]

theorem length_takeWhile_eq {free : Tag → Prop} {test : Tag → Bool}
    (htest : ∀ t u : Tag, t.Alike free u → test t = test u) {ts us : List Tag}
    (h : List.Forall₂ (Tag.Alike free) ts us) :
    (ts.takeWhile test).length = (us.takeWhile test).length := by
  induction h with
  | nil => rfl
  | cons h _ ih =>
      rw [List.takeWhile_cons, List.takeWhile_cons, htest _ _ h]
      split
      · rw [List.length_cons, List.length_cons, ih]
      · rfl

section Place

variable {place place' : Place} (hplace : place.Alike (Tag.HidesEmpty c) place')

include hplace

theorem isLooseText_eq (h : t.Alike (Tag.HidesEmpty c) u) (hasChildren : Bool) :
    isLooseText place t hasChildren = isLooseText place' u hasChildren := by
  have hspans : spansLines (.text "") = false := rfl
  rw [isLooseText, isLooseText, h.isText, h.hasField,
    h.any_value hspans, isTextTag_eq (rel_head? hplace.before),
    isTextTag_eq (rel_head? hplace.after)]

theorem isInLongRun_eq (o : Options) :
    isInLongRun o place = isInLongRun o place' := by
  have htest : ∀ t u : Tag, t.Alike (Tag.HidesEmpty c) u →
      isInlineElement o t = isInlineElement o u := fun _ _ =>
        isInlineElement_eq o
  simp only [isInLongRun, length_takeWhile_eq htest hplace.before,
    length_takeWhile_eq htest hplace.after]

theorem meetsBlock_eq :
    meetsBlock c.options place = meetsBlock c.options place' := by
  have hafter : place.after.any (!isInline c.options ·) =
      place'.after.any (!isInline c.options ·) :=
    any_eq (fun _ _ h => congrArg (!·) (isInline_eq h)) hplace.after
  rw [meetsBlock, meetsBlock]
  have hbefore := hplace.before
  cases hp : place.before with
  | nil =>
      rw [hp] at hbefore
      rw [List.forall₂_nil_left_iff.1 hbefore]
      exact hafter
  | cons b bs =>
      rw [hp] at hbefore
      obtain ⟨b', bs', hb, -, hp'⟩ := List.forall₂_cons_left_iff.1 hbefore
      rw [hp']
      exact congrArg (!·) (isInline_eq hb)

theorem beginsLine?_eq (h : t.Alike (Tag.HidesEmpty c) u) (hasChildren : Bool) :
    beginsLine? c.options place t hasChildren =
      beginsLine? c.options place' u hasChildren := by
  rw [beginsLine?, beginsLine?, isEmpty_eq hplace.before,
    isEmpty_eq hplace.after, isNone_eq hplace.parent,
    isTextTag_eq hplace.parent, isLooseText_eq hplace h, isInline_eq h,
    meetsBlock_eq hplace, isInLongRun_eq hplace]

end Place

mutual

theorem beginsLine_eq {place place' : Place}
    (hplace : place.Alike (Tag.HidesEmpty c) place') {n m : Node}
    (h : Node.Alike (Tag.HidesEmpty c) n m) :
    beginsLine c.options place n = beginsLine c.options place' m := by
  match n, m with
  | ⟨t, cs⟩, ⟨u, ds⟩ =>
      have hbelow := anyBeginsLine_eq h.1 .nil h.2
      rw [beginsLine, beginsLine, beginsLine?_eq hplace h.1,
        h.2.isEmpty, hbelow]

theorem anyBeginsLine_eq {parent parent' : Tag}
    (hparent : parent.Alike (Tag.HidesEmpty c) parent')
    {before before' : List Tag}
    (hbefore : List.Forall₂ (Tag.Alike (Tag.HidesEmpty c)) before before')
    {ns ms : List Node} (h : Node.AllAlike (Tag.HidesEmpty c) ns ms) :
    anyBeginsLine c.options parent before ns =
      anyBeginsLine c.options parent' before' ms := by
  match ns, ms with
  | [], [] => rfl
  | [], _ :: _ => exact h.elim
  | _ :: _, [] => exact h.elim
  | n :: ns, m :: ms =>
      have hplace : Place.Alike (Tag.HidesEmpty c)
          ⟨some parent, before, ns.map (·.tag)⟩
          ⟨some parent', before', ms.map (·.tag)⟩ :=
            ⟨.some hparent, hbefore, h.2.tags⟩
      rw [anyBeginsLine, anyBeginsLine, beginsLine_eq hplace h.1,
        anyBeginsLine_eq hparent (.cons h.1.tag hbefore) h.2]

end

/-! ### Elements and texts -/

theorem writeAttribute_agrees (h : p.Agrees c q) (a : Attribute) :
    (writeAttribute c p a).Agrees c (writeAttribute c q a) := by
  rw [writeAttribute, writeAttribute]
  cases a.name with
  | none => exact h
  | some name =>
      dsimp only
      cases (form c.options a name).value with
      | some value => exact (((h.string _).string _).pieces value).string _
      | none =>
          dsimp only
          split
          · exact h.string _
          · exact (h.string _).string _

theorem writeValue_agrees (h : p.Agrees c q) (value : List Piece) :
    (writeValue c value p).Agrees c (writeValue c value q) :=
  h.onOwnLines _ fun _ _ hpq => hpq.pieces value

theorem writeValue_concat_empty (hooks : c.hooks = {}) (h : p.Agrees c q)
    (value : List Piece) :
    (writeValue c (value ++ [.text ""]) p).Agrees c (writeValue c value q) := by
  have hempty : spansLines (.text "") = false := rfl
  have hspans : (value ++ [Piece.text ""]).any spansLines =
      value.any spansLines := by
    rw [List.any_append, List.any_cons, hempty, List.any_nil, Bool.or_self,
      Bool.or_false]
  have hblock : beginsWithBlock c.options (value ++ [.text ""]) =
      beginsWithBlock c.options value := by
    cases value with
    | nil => rfl
    | cons x value => cases x <;> rfl
  rw [writeValue, writeValue, hspans, hblock]
  exact h.onOwnLines _ fun _ _ hpq => hpq.pieces_concat_empty hooks value

/-- An empty value writes what the place for the content of an empty element
does. -/
theorem writeValue_empty (hooks : c.hooks = {}) {name : String}
    (hleaf : c.options.formatLeafNode = false)
    (hforce : Options.lists c.options.formatForce name = false)
    (h : p.Agrees c q) :
    (writeValue c [.text ""] p).Agrees c (writeCaret c name q) := by
  have hwritten : (p.pieces c [.text ""]).Agrees c q :=
    h.pieces_concat_empty hooks []
  have hlines : writeValue c [.text ""] p = p.pieces c [.text ""] := rfl
  rw [hlines, writeCaret, hleaf, hforce]
  exact hwritten.pieces_caret hooks

theorem cutAtField?_concat (value : List Piece) (s : String) :
    cutAtField? (value ++ [.text s]) =
      (cutAtField? value).map fun cut => (cut.1, cut.2 ++ [.text s]) := by
  induction value with
  | nil => rfl
  | cons x value ih =>
      cases x with
      | field index name => rfl
      | text s' =>
          simp only [List.cons_append, cutAtField?, ih, Option.map_map]
          rfl

theorem writeBehind_agrees (h : p.Agrees c q) (brokeLine : Bool)
    (behind : List Piece) :
    (writeBehind c brokeLine behind p).Agrees c
      (writeBehind c brokeLine behind q) := by
  rw [writeBehind.eq_def, writeBehind.eq_def]
  split
  · dsimp only
    split
    · exact h.string _
    · exact (h.string _).pieces _
  · exact h
  · exact h.pieces _

theorem writeBehind_concat_empty (hooks : c.hooks = {}) (h : p.Agrees c q)
    (brokeLine : Bool) (behind : List Piece) :
    (writeBehind c brokeLine (behind ++ [.text ""]) p).Agrees c
      (writeBehind c brokeLine behind q) := by
  cases behind with
  | nil =>
      cases brokeLine with
      | true => exact h.string_empty hooks
      | false => exact h.pieces_concat_empty hooks []
  | cons x rest =>
      cases x with
      | field index name =>
          cases brokeLine <;>
            exact h.pieces_concat_empty hooks (.field index name :: rest)
      | text s =>
          cases brokeLine with
          | false => exact h.pieces_concat_empty hooks _
          | true =>
              have hfirst := h.string (String.ofList (Text.dropBlanks s.toList))
              cases rest with
              | nil => exact hfirst.pieces_concat_empty hooks []
              | cons y rest => exact hfirst.pieces_concat_empty hooks _

/-- The writers of the nodes below two tags. -/
structure WriteAlike (c : Config) (hasChildren : Bool)
    (below below' : Page → Page) : Prop where
  agrees : ∀ p q : Page, p.Agrees c q → (below p).Agrees c (below' q)
  leaf : hasChildren = false → below = id ∧ below' = id

section Element

variable {hasChildren : Bool} {below below' : Page → Page}
    (hbelow : WriteAlike c hasChildren below below')
    (h : t.Alike (Tag.HidesEmpty c) u)

include hbelow h

theorem wrapAround?_agrees (hpq : p.Agrees c q) :
    Option.Rel (Page.Agrees c) (wrapAround? c t hasChildren below p)
      (wrapAround? c u hasChildren below' q) := by
  rw [wrapAround?, wrapAround?]
  split
  · exact .none
  rcases h.value with heq | ⟨⟨htagged, -⟩, heq⟩
  · rw [heq]
    cases cutAtField? (u.value.getD []) with
    | none => exact .none
    | some cut =>
        have hwrapped := hbelow.agrees _ _ (hpq.pieces cut.1)
        dsimp only
        rw [hwrapped.out, (hpq.pieces cut.1).out]
        exact .some (writeBehind_agrees hwrapped _ cut.2)
  · rw [heq, Option.getD_some, cutAtField?_concat]
    cases cutAtField? (u.value.getD []) with
    | none => exact .none
    | some cut =>
        have hwrapped := hbelow.agrees _ _ (hpq.pieces cut.1)
        simp only [Option.map_some]
        rw [hwrapped.out, (hpq.pieces cut.1).out]
        exact .some (writeBehind_concat_empty htagged.hooks hwrapped _ cut.2)

/-- What an element or a text shows of its value, with the nodes below it. -/
theorem writeShown_agrees {rawName : String} (hname : u.name = some rawName)
    (hpq : p.Agrees c q) :
    Page.Agrees c
      (match t.value with
        | some value => below (writeValue c value p)
        | none => if hasChildren then below p else writeCaret c rawName p)
      (match u.value with
        | some value => below' (writeValue c value q)
        | none =>
            if hasChildren then below' q else writeCaret c rawName q) := by
  rcases h.value with heq | ⟨⟨htagged, hhides⟩, heq⟩
  · rw [heq]
    cases u.value with
    | some value => exact hbelow.agrees _ _ (writeValue_agrees hpq value)
    | none =>
        dsimp only
        split
        · exact hbelow.agrees _ _ hpq
        · exact hpq.onOwnLines _ fun _ _ hpq => hpq.pieces caret
  · rw [heq]
    cases hvalue : u.value with
    | some value =>
        exact hbelow.agrees
          _ _ (writeValue_concat_empty htagged.hooks hpq value)
    | none =>
        rw [hvalue] at hhides
        obtain ⟨-, hleaf, name, hname', hforce, -⟩ :=
          hhides.resolve_left (by simp)
        obtain rfl : rawName = name := Option.some.inj (hname.symm.trans hname')
        dsimp only
        split
        · exact hbelow.agrees _ _ (writeValue_concat_empty htagged.hooks hpq [])
        · next hchildless =>
            rw [(hbelow.leaf (by simpa using hchildless)).1]
            exact writeValue_empty htagged.hooks hleaf hforce hpq

theorem writeElement_agrees {rawName : String} (hname : u.name = some rawName)
    (hpq : p.Agrees c q) :
    (writeElement c t rawName hasChildren below p).Agrees c
      (writeElement c u rawName hasChildren below' q) := by
  have hempty : (t.selfClosing && !hasChildren && t.value.isNone) =
      (u.selfClosing && !hasChildren && u.value.isNone) := by
    rcases h.value with heq | ⟨⟨-, hsome | ⟨hself, -⟩⟩, heq⟩
    · rw [h.selfClosing, heq]
    · rw [h.selfClosing, heq, Option.isNone_some,
        Option.isNone_eq_false_iff.2 hsome]
    · rw [h.selfClosing, hself, Bool.false_and, Bool.false_and, Bool.false_and]
  have hopening :=
    ((hpq.string ("<" ++ c.options.tagCase.apply rawName)).foldl (fun _ _ a
        hpq => writeAttribute_agrees hpq a) (u.attributeList.filter isWritten))
  rw [writeElement, writeElement, h.attributeList, hempty]
  dsimp only
  split
  · exact hopening.string _
  · refine Page.Agrees.string ?_ _
    have hinside := hopening.string ">"
    have hwrap := wrapAround?_agrees hbelow h hinside
    have hshown := writeShown_agrees hbelow h hname hinside
    revert hwrap
    generalize wrapAround? c t hasChildren below _ = x
    generalize wrapAround? c u hasChildren below' _ = y
    intro hwrap
    cases hwrap with
    | none => exact hshown
    | some hwrapped => exact hwrapped

theorem writeText_agrees (hname : u.name = none) (hpq : p.Agrees c q) :
    (writeText c t hasChildren below p).Agrees c
      (writeText c u hasChildren below' q) := by
  have hwrap := wrapAround?_agrees hbelow h hpq
  rw [writeText, writeText]
  revert hwrap
  generalize wrapAround? c t hasChildren below _ = x
  generalize wrapAround? c u hasChildren below' _ = y
  intro hwrap
  cases hwrap with
  | some hwrapped => exact hwrapped
  | none =>
      dsimp only
      rcases h.value with heq | ⟨⟨htagged, hhides⟩, heq⟩
      · rw [heq]
        cases u.value with
        | some value => exact hbelow.agrees _ _ (hpq.pieces value)
        | none => exact hpq
      · rw [heq]
        cases hvalue : u.value with
        | some value =>
            exact hbelow.agrees
              _ _ (hpq.pieces_concat_empty htagged.hooks value)
        | none =>
            rw [hvalue] at hhides
            obtain ⟨-, -, name, hnamed, -⟩ := hhides.resolve_left (by simp)
            rw [hname] at hnamed
            cases hnamed

end Element

theorem finish_agrees {place place' : Place}
    (hplace : place.Alike (Tag.HidesEmpty c) place') (begins : Bool)
    (hpq : p.Agrees c q) :
    (finish c place begins p).Agrees c (finish c place' begins q) := by
  have hsome : place.parent.isSome = place'.parent.isSome := by
    rw [← Option.not_isNone, ← Option.not_isNone, isNone_eq hplace.parent]
  rw [finish, finish, isEmpty_eq hplace.after, hsome,
    isTextTag_eq hplace.parent, hpq.out]
  split
  · exact hpq.newline _
  · exact hpq

theorem indentStep_eq {free : Tag → Prop} (o : Options) {x y : Option Tag}
    (h : Option.Rel (Tag.Alike free) x y) :
    indentStep o x = indentStep o y := by
  cases h with
  | none => rfl
  | some h => rw [indentStep, indentStep, h.isText, h.name]

/-- Below a leaf nothing is written. -/
theorem writeNodes_leaf {parent parent' : Tag} {free : Tag → Prop}
    {ns ms : List Node} (h : Node.AllAlike free ns ms)
    (hleaf : (!ms.isEmpty) = false) :
    writeNodes c (some parent) [] ns = id ∧ writeNodes c (some parent')
      [] ms = id := by
  obtain rfl : ms = [] := by simpa using hleaf
  obtain rfl := h.eq_nil_iff.2 rfl
  exact ⟨funext fun p => by rw [writeNodes, id],
    funext fun p => by rw [writeNodes, id]⟩

mutual

theorem writeNode_agrees {place place' : Place}
    (hplace : place.Alike (Tag.HidesEmpty c) place') {n m : Node}
    (h : Node.Alike (Tag.HidesEmpty c) n m) {p q : Page} (hpq : p.Agrees c q) :
    (writeNode c place n p).Agrees c (writeNode c place' m q) := by
  match n, m with
  | ⟨t, cs⟩, ⟨u, ds⟩ =>
      have hbelow : WriteAlike c (!ds.isEmpty) (writeNodes c (some t) [] cs)
          (writeNodes c (some u) [] ds) :=
        ⟨fun p q hpq => writeNodes_agrees (.some h.1) .nil h.2 hpq,
          writeNodes_leaf h.2⟩
      have hbegins : (beginsLine? c.options place t (!cs.isEmpty)).getD
            (anyBeginsLine c.options t [] cs) =
          (beginsLine? c.options place' u (!ds.isEmpty)).getD
            (anyBeginsLine c.options u [] ds) := by
        rw [beginsLine?_eq hplace h.1, h.2.isEmpty,
          anyBeginsLine_eq h.1 .nil h.2]
      rw [writeNode, writeNode, hbegins, indentStep_eq c.options hplace.parent,
        h.1.name, h.2.isEmpty]
      refine (finish_agrees hplace _ ?_).shift _
      have hstart : Page.Agrees c
          (if (beginsLine? c.options place' u (!ds.isEmpty)).getD
              (anyBeginsLine c.options u [] ds) then
            (p.shift (indentStep c.options place'.parent)).freshLine c
          else p.shift (indentStep c.options place'.parent))
          (if (beginsLine? c.options place' u (!ds.isEmpty)).getD
              (anyBeginsLine c.options u [] ds) then
            (q.shift (indentStep c.options place'.parent)).freshLine c
          else q.shift (indentStep c.options place'.parent)) := by
        split
        · exact (hpq.shift _).freshLine
        · exact hpq.shift _
      cases hname : u.name with
      | some name => exact writeElement_agrees hbelow h.1 hname hstart
      | none => exact writeText_agrees hbelow h.1 hname hstart

theorem writeNodes_agrees {parent parent' : Option Tag}
    (hparent : Option.Rel (Tag.Alike (Tag.HidesEmpty c)) parent parent')
    {before before' : List Tag}
    (hbefore : List.Forall₂ (Tag.Alike (Tag.HidesEmpty c)) before before')
    {ns ms : List Node} (h : Node.AllAlike (Tag.HidesEmpty c) ns ms)
    {p q : Page} (hpq : p.Agrees c q) :
    (writeNodes c parent before ns p).Agrees c
      (writeNodes c parent' before' ms q) := by
  match ns, ms with
  | [], [] => exact hpq
  | [], _ :: _ => exact h.elim
  | _ :: _, [] => exact h.elim
  | n :: ns, m :: ms =>
      have hplace : Place.Alike (Tag.HidesEmpty c)
          ⟨parent, before, ns.map (·.tag)⟩
          ⟨parent', before', ms.map (·.tag)⟩ := ⟨hparent, hbefore, h.2.tags⟩
      rw [writeNodes, writeNodes]
      exact writeNodes_agrees hparent (.cons h.1.tag hbefore) h.2
        (writeNode_agrees hplace h.1 hpq)

end

end Tagged

namespace Outline

variable {free : Tag → Prop} (c : Config) (style : OutlineStyle)

theorem exists_copy_eq (hfree : ∀ t, ¬ free t) {t u : Tag}
    (h : t.Alike free u) : ∃ copy, t = { u with copy := copy } := by
  have hvalue := h.value.resolve_right fun heq => hfree u heq.1
  refine ⟨t.copy, ?_⟩
  rw [← hvalue, ← h.name, ← h.attributes, ← h.selfClosing]

mutual

/-- The mark on a copy is all that is left to differ, and it is not written. -/
theorem writeNode_eq (hfree : ∀ t, ¬ free t) {n m : Node}
    (h : Node.Alike free n m) (isTop isFirst : Bool) (p : Page) :
    writeNode c style isTop isFirst n p =
      writeNode c style isTop isFirst m p := by
  match n, m with
  | ⟨t, cs⟩, ⟨u, ds⟩ =>
      obtain ⟨copy, rfl⟩ := exists_copy_eq hfree h.1
      have hbelow := writeNodes_eq hfree h.2
      rw [writeNode, writeNode, h.2.isEmpty]
      simp only [hbelow]
      rfl

theorem writeNodes_eq (hfree : ∀ t, ¬ free t) {ns ms : List Node}
    (h : Node.AllAlike free ns ms) (isTop isFirst : Bool) (p : Page) :
    writeNodes c style isTop isFirst ns p =
      writeNodes c style isTop isFirst ms p := by
  match ns, ms with
  | [], [] => rfl
  | [], _ :: _ => exact h.elim
  | _ :: _, [] => exact h.elim
  | n :: ns, m :: ms =>
      rw [writeNodes, writeNodes, writeNode_eq hfree h.1,
        writeNodes_eq hfree h.2]

end

end Outline

end Scaffold.Markup

namespace Scaffold.Node

end Scaffold.Node

import Scaffold.Proofs.Statement.BracedText
import Scaffold.Proofs.Token.Enclosed
import Scaffold.Snippet.Resolution
/-!
Texts that come through unchanged.  An element `p` whose text or whose
attribute's value is escaped gets exactly what was escaped, whatever the
characters are.  Without escapes it gets what was written, but for the counts at
the head of the text, which are written anew.  Main statements:
`ofSource?_escape`, `ofSource?_verbatim_iff`.
-/
namespace Scaffold

namespace Token

theorem isTextPart_of_isWord {t : Token} (h : t.isWord = true) :
    t.isTextPart = true := by
  rcases t with ⟨kind, _, _⟩
  cases kind <;> first | rfl | cases h

theorem ne_textPlaceholder_of_isWord {t : Token} (h : t.isWord = true) :
    t.kind ≠ .textPlaceholder := by
  intro hkind
  rw [isWord, hkind] at h
  cases h

end Token

namespace Statement.Parser

/-- A quoted value ends at the next quote of its kind. -/
theorem quotedLength?_eq {single : Bool} {inner : List Token}
    (hinner : ∀ t ∈ inner, t.isTextPart = true) {stop : Token}
    (hstop : stop.kind = .quote single) (rest : List Token) :
    quotedLength? single (inner ++ stop :: rest) = some inner.length := by
  induction inner with
  | nil => simp [quotedLength?, Token.isQuote, hstop]
  | cons t inner ih =>
      obtain ⟨ht, hinner⟩ := List.forall_mem_cons.1 hinner
      have hquote : t.isQuote single = false := by
        rcases t with ⟨kind, _, _⟩
        cases kind <;> first | rfl | cases ht
      simp [quotedLength?, hquote, ih hinner]

/-- An attribute with a quoted value, and the bracket behind it. -/
theorem attributeSet_quoted {single : Bool} {inner : List Token}
    (hinner : ∀ t ∈ inner, t.isTextPart = true)
    {name equal opening close last : Token} {label : String}
    (hname : name.kind = .literal label)
    (hequal : equal.kind = .operator .equal)
    (hopening : opening.kind = .quote single)
    (hclose : close.kind = .quote single)
    (hlast : last.kind = .bracket .attributes false) (opener : Token) :
    attributeSet opener (name :: equal :: opening :: (inner ++ [close, last])) =
      .ok ([{ name := some [name],
              value := some (opening :: (inner ++ [close])) }],
        inner.length + 5) := by
  have hquoted : quoted (opening :: (inner ++ [close, last])) =
      .ok (inner.length + 2) := by
    simp [quoted, hopening, quotedLength?_eq hinner hclose]
  have hvalue : attributeValue (opening :: (inner ++ [close, last])) =
      .ok (some (opening :: (inner ++ [close])), inner.length + 2) := by
    rw [attributeValue, hquoted]
    simp [bind, Except.bind, pure, Except.pure, List.take_append]
  have hattribute :
      attributeTokens? (name :: equal :: opening :: (inner ++ [close, last])) =
      .ok (some
        ({ name := some [name], value := some (opening :: (inner ++ [close])) },
        inner.length + 4)) := by
    rw [attributeTokens?]
    simp [quoted, hname, literalLength, hequal, Token.isOperator, hvalue, bind,
      Except.bind, pure, Except.pure]
    omega
  have hbehind : (equal :: opening :: (inner ++ [close, last])).drop
      (inner.length + 4 - 1) =
      [last] := by
    have hlength : inner.length + 4 - 1 = inner.length + 1 + 1 + 1 := rfl
    rw [hlength, List.drop_succ_cons, List.drop_succ_cons, ← List.drop_drop,
      List.drop_left]
    rfl
  have hend : attributeSet opener [last] = .ok ([], 1) := by
    rw [attributeSet]
    simp [attributeTokens?, quoted, literalLength, hlast, Token.isBracket, bind,
      Except.bind, pure, Except.pure, Depths.get]
  rw [attributeSet, hattribute]
  simp only [hbehind, hend]

/-- An element with a single attribute, whose value stands between two
quotes. -/
def quotedElement (element name opening : Token) (inner : List Token)
    (close : Token) : ElementTokens :=
  { name := some [element]
    attributes := some
      [{ name := some [name], value := some (opening :: (inner ++ [close])) }] }

/-- A name and a set of one attribute with a quoted value are an element. -/
theorem parse_quoted (jsx : Bool) {single : Bool} {inner : List Token}
    (hinner : ∀ t ∈ inner, t.isTextPart = true)
    {element opener name equal opening close last : Token} {word label : String}
    (helement : element.kind = .literal word)
    (hopener : opener.kind = .bracket .attributes true)
    (hname : name.kind = .literal label)
    (hequal : equal.kind = .operator .equal)
    (hopening : opening.kind = .quote single)
    (hclose : close.kind = .quote single)
    (hlast : last.kind = .bracket .attributes false) :
    parse jsx (element :: opener :: name :: equal :: opening ::
      (inner ++ [close, last])) =
      .ok [.element (quotedElement element name opening inner close) []] := by
  have hset :=
    attributeSet_quoted hinner hname hequal hopening hclose hlast opener
  have hlength : nameLength jsx
      (element :: opener :: name :: equal :: opening ::
        (inner ++ [close, last])) = 1 := by
    apply nameLength_literal jsx helement <;> intro t ht <;> obtain rfl :=
      Option.some.inj ht <;>
      simp [Token.isNamePart, Token.isOperator, hopener]
  have hparts : elementParts jsx { name := some [element] }
      (opener :: name :: equal :: opening :: (inner ++ [close, last])) =
        .ok (quotedElement element name opening inner close,
          inner.length + 6) := by
    rw [elementParts]
    simp [Token.repeater?, text?, shorthand?, Token.isBracket, hopener, hset,
      elementParts_nil, ElementTokens.addAttributes, quotedElement]
  have hread : element? jsx
      (element :: opener :: name :: equal :: opening ::
        (inner ++ [close, last])) =
        .ok (some (quotedElement element name opening inner close,
          inner.length + 7)) := by
    have hsome :
        (quotedElement element name opening inner close).isEmpty = false := rfl
    have hcount : 1 + (inner.length + 6) = inner.length + 7 := by omega
    simp [element?, hlength, hparts, hsome, hcount]
  have hend :
      (opener :: name :: equal :: opening :: (inner ++ [close, last])).drop
        (inner.length + 7 - 1) = [] := by
    rw [List.drop_eq_nil_iff]
    simp only [List.length_cons, List.length_append, List.length_nil]
    omega
  rw [parse, statementsFrom.eq_def]
  simp only [hread, hend, follow, List.drop_nil]
  rw [statementsFrom]
  rfl

end Statement.Parser

namespace Unrolling

/-- Words become one piece of text, together with the text in front of them. -/
theorem piecesFrom_of_isWord {ts : List Token} (hts : ∀ t ∈ ts, t.isWord = true)
    (s : Settings) (chain : Chain) (front : String) :
    piecesFrom s chain front ts =
      if (front ++ nameText {} [] ts).isEmpty then []
      else [.text (front ++ nameText {} [] ts)] := by
  induction ts generalizing front with
  | nil => simp [piecesFrom, nameText]
  | cons t ts ih =>
      obtain ⟨ht, hts⟩ := List.forall_mem_cons.1 hts
      have htext : nameText {} [] (t :: ts) = tokenText {} [] t ++
          nameText {} [] ts := by
        rw [nameText, List.map_cons, String.join_cons, nameText]
      rw [piecesFrom, t.tokenText_of_isWord ht, htext,
        ← String.append_assoc, ← ih hts]
      rcases t with ⟨kind, _, _⟩
      cases kind <;> first | rfl | cases ht

theorem pieces_of_isWord {ts : List Token} (hts : ∀ t ∈ ts, t.isWord = true)
    {text : String} (htext : nameText {} [] ts = text) (hne : text ≠ "")
    (s : Settings) (chain : Chain) : pieces s chain ts = [.text text] := by
  rw [pieces, piecesFrom_of_isWord hts, htext, String.empty_append]
  simp [hne]

theorem Progress.reading_of_ne {ts : List Token}
    (hts : ∀ t ∈ ts, t.kind ≠ .textPlaceholder) (p : Progress) :
    p.reading ts = p := by
  have hnone : ts.any (·.kind == .textPlaceholder) = false := by
    rw [List.any_eq_false]
    intro t ht hplace
    exact hts t ht (beq_iff_eq.1 hplace)
  rw [reading, hnone]
  rfl

theorem unwrapValue_quoted (plain : ValueKind) (single : Bool)
    (inner : List Token) (a b c d : Nat) :
    unwrapValue plain
      (⟨.quote single, a, b⟩ :: (inner ++ [⟨.quote single, c, d⟩])) =
      (inner, if single then .singleQuoted else .doubleQuoted) := by
  have hlast : Token.isQuote ⟨.quote single, c, d⟩ single = true :=
    beq_self_eq_true _
  simp [unwrapValue, dropLastIf, hlast]

/-- The nodes with the replacement text, if there is any, in the last one. -/
def Settings.placed (s : Settings) (nodes : List Node) : List Node :=
  match s.text with
  | none => nodes
  | some text => placeText s text.whole nodes

/-- The node of an element without a repeater and without children. -/
theorem unroll_element (s : Settings) {e : ElementTokens}
    (hname : e.name.isSome = true) (hrepeater : e.repeater = none)
    (hquiet : ∀ p : Progress, ((p.readingOption e.name).readingOption
      e.value).readingAttributes (e.attributes.getD []) = p) :
    unroll s [.element e []] =
      ⟨s.placed [⟨{ bareTag s [] none e with
        attributes := e.attributes.map (·.map (attributeOf s [])) },
          []⟩], 0⟩ := by
  have hnodes : statementsNodes s [] [.element e []]
      { budget := max s.maxRepeat 1 } =
      ([⟨{ bareTag s [] none e with
        attributes := e.attributes.map (·.map (attributeOf s [])) }, []⟩],
        { budget := max s.maxRepeat 1 }) := by
    have hnamed : (bareTag s [] none e).name.isNone = false := by
      simpa [bareTag] using hname
    simp [statementsNodes, statementNodes, hrepeater, repeated, elementNodes,
      hquiet, Tag.isText, hnamed]
  rw [unroll, hnodes, Settings.placed]
  cases s.text <;> rfl

end Unrolling

namespace Lexer.Enclosure

/-- The element `p` with an enclosed text: as its own text, or as the value of
its attribute `t`. -/
def source : Enclosure → String → String
  | braces, text => "p\x7b" ++ text ++ "\x7d"
  | quotes true, text => "p[t='" ++ text ++ "']"
  | quotes false, text => "p[t=\"" ++ text ++ "\"]"

/-- The node of the element `p` with a text of its own, or in its attribute
`t`. -/
def node : Enclosure → String → Node
  | braces, text => ⟨{ name := some "p", value := some [.text text] }, []⟩
  | quotes single, text =>
    ⟨{ name := some "p"
       attributes := some [{
         name := some "t", value := some [.text text]
         kind := if single then .singleQuoted else .doubleQuoted }] }, []⟩

/-- The tokens in front of the enclosed text of a source. -/
def opening : Enclosure → List Token
  | braces => [⟨.literal "p", 0, 1⟩, ⟨.bracket .expression true, 1, 2⟩]
  | quotes single =>
    [⟨.literal "p", 0, 1⟩, ⟨.bracket .attributes true, 1, 2⟩,
      ⟨.literal "t", 2, 3⟩, ⟨.operator .equal, 3, 4⟩, ⟨.quote single, 4, 5⟩]

def ending : Enclosure → Nat → List Token
  | braces, stop => [⟨.bracket .expression false, stop, stop + 1⟩]
  | quotes single, stop =>
    [⟨.quote single, stop, stop + 1⟩,
      ⟨.bracket .attributes false, stop + 1, stop + 2⟩]

/-- The element of a source whose enclosed text has the given tokens and ends at
a place. -/
def element : Enclosure → List Token → Nat → ElementTokens
  | braces, tokens, _ =>
      { name := some [⟨.literal "p", 0, 1⟩], value := some tokens }
  | quotes single, tokens, stop =>
    Statement.Parser.quotedElement ⟨.literal "p", 0, 1⟩ ⟨.literal "t", 2, 3⟩
      ⟨.quote single, 4, 5⟩ tokens ⟨.quote single, stop, stop + 1⟩

theorem tokensFrom_quotes {single : Bool} {cs : List Char} {tokens : List Token}
    (htokens : tokensFrom (quotes single).inside (some (quotes single).mark) 5
      cs = .ok tokens) :
    tokensFrom {} none 0
      ('p' :: '[' :: 't' :: '=' :: (quotes single).mark :: cs) =
      .ok ((quotes single).opening ++ tokens) := by
  have hname : lexeme? {} none 0
      ('p' :: '[' :: 't' :: '=' :: (quotes single).mark :: cs) =
      .ok (some { kind := .literal "p", length := 1, context := {} }) := rfl
  have hopen : lexeme? {} (some 'p') 1
      ('[' :: 't' :: '=' :: (quotes single).mark :: cs) =
      .ok (some { kind := .bracket .attributes true, length := 1,
                  context := (quotes single).outside }) := rfl
  have hlabel : lexeme? (quotes single).outside (some '[') 2
      ('t' :: '=' :: (quotes single).mark :: cs) =
        .ok (some { kind := .literal "t", length := 1,
                    context := (quotes single).outside }) := rfl
  have hequal : lexeme? (quotes single).outside (some 't') 3
      ('=' :: (quotes single).mark :: cs) =
      .ok (some { kind := .operator .equal, length := 1,
                  context := (quotes single).outside }) := rfl
  have hquote : lexeme? (quotes single).outside (some '=') 4
      ((quotes single).mark :: cs) =
      .ok (some { kind := .quote single, length := 1,
                  context := (quotes single).inside }) := by
    cases single <;> rfl
  exact tokensFrom_of_lexeme? (by simp) hname (tokensFrom_of_lexeme? (by simp)
    hopen (tokensFrom_of_lexeme? (by simp) hlabel (tokensFrom_of_lexeme?
        (by simp) hequal (tokensFrom_of_lexeme? (by simp) hquote htokens))))

theorem tokenize_source {e : Enclosure} {cs : List Char} {text : String}
    (h : e.Speaks cs text) :
    ∃ tokens stop,
      tokenize (e.source (String.ofList cs)) =
        .ok (e.opening ++ (tokens ++ e.ending stop)) ∧
        (∀ t ∈ tokens, t.isWord = true) ∧ Unrolling.nameText {}
          [] tokens = text := by
  cases e with
  | braces =>
      obtain ⟨tokens, htokens, hwords⟩ :=
        h (some '{') 2 [] [] (by rw [tokensFrom]; rfl)
      have hsource : (braces.source (String.ofList cs)).toList =
          'p' :: '{' :: (cs ++ [braces.mark]) := by
        simp [source, mark]
      refine ⟨tokens, 2 + cs.length, ?_, hwords⟩
      rw [tokenize, hsource]
      exact tokensFrom_name htokens
  | quotes single =>
      have hlast : lexeme? (quotes single).outside (some (quotes single).mark)
          (5 + cs.length + 1) [']'] =
            .ok (some { kind := .bracket .attributes false, length := 1,
                        context := {} }) := rfl
      have hend :=
        tokensFrom_of_lexeme? (by simp) hlast (by rw [tokensFrom]; rfl)
      obtain ⟨tokens, htokens, hwords⟩ :=
        h (some (quotes single).mark) 5 [']'] _ hend
      have hsource : ((quotes single).source (String.ofList cs)).toList =
          'p' :: '[' :: 't' :: '=' :: (quotes single).mark ::
            (cs ++ [(quotes single).mark, ']']) := by
        cases single <;> simp [source, mark]
      refine ⟨tokens, 5 + cs.length, ?_, hwords⟩
      rw [tokenize, hsource]
      exact tokensFrom_quotes htokens

theorem parse_source (jsx : Bool) (e : Enclosure) {tokens : List Token}
    (hwords : ∀ t ∈ tokens, t.isWord = true) (stop : Nat) :
    Statement.parse jsx (e.opening ++ (tokens ++ e.ending stop)) =
      .ok [.element (e.element tokens stop) []] := by
  have hparts : ∀ t ∈ tokens, t.isTextPart = true :=
    fun t ht => Token.isTextPart_of_isWord (hwords t ht)
  cases e with
  | braces => exact Statement.Parser.parse_text jsx "p" hparts rfl 0 1 2
  | quotes single =>
      exact Statement.Parser.parse_quoted jsx hparts rfl rfl rfl rfl rfl rfl rfl

theorem unroll_source (s : Unrolling.Settings) (e : Enclosure)
    {tokens : List Token} (hwords : ∀ t ∈ tokens, t.isWord = true)
    {text : String} (htext : Unrolling.nameText {} [] tokens = text)
    (hne : text ≠ "") (stop : Nat) :
    unroll s [.element (e.element tokens stop) []] =
      ⟨s.placed [e.node text], 0⟩ := by
  have hpieces := Unrolling.pieces_of_isWord hwords htext hne s []
  have hquiet : ∀ t ∈ tokens, t.kind ≠ .textPlaceholder :=
    fun t ht => Token.ne_textPlaceholder_of_isWord (hwords t ht)
  cases e with
  | braces =>
      rw [Unrolling.unroll_element s rfl rfl]
      · simp only [element, Unrolling.bareTag, Option.map_some, hpieces]
        rfl
      · exact fun p => p.reading_of_ne hquiet
  | quotes single =>
      have hname : (Unrolling.nameText s [] [⟨.literal "t", 2, 3⟩]).toList =
          ['t'] := by
        simp [Unrolling.nameText, Unrolling.tokenText]
      rw [Unrolling.unroll_element s rfl rfl]
      · simp only [element, Statement.Parser.quotedElement, Unrolling.bareTag,
          Option.map_some, Option.map_none, List.map_cons, List.map_nil,
          Unrolling.attributeOf, hname, Unrolling.unwrapValue_quoted, hpieces]
        rfl
      · intro p
        apply p.reading_of_ne
        intro t ht
        rcases List.mem_cons.1 ht with rfl | ht
        · simp
        · rcases List.mem_append.1 ht with ht | ht
          · exact hquiet t ht
          · obtain rfl := List.mem_singleton.1 ht
            simp

/-- An enclosed text becomes the text of one node, or of its one attribute. -/
theorem ofSource?_of_speaks {e : Enclosure} {cs : List Char} {text : String}
    (h : e.Speaks cs text) (hne : text ≠ "") (jsx : Bool)
    (s : Unrolling.Settings) :
    Node.ofSource? jsx s (e.source (String.ofList cs)) =
      .ok ⟨s.placed [e.node text], 0⟩ := by
  obtain ⟨tokens, stop, htokens, hwords, htext⟩ := tokenize_source h
  rw [Node.ofSource?, htokens]
  simp only [e.parse_source jsx hwords, e.unroll_source s hwords htext hne]

/-- The node of an enclosed text with a replacement text, which comes behind the
node's own text. -/
theorem placed_node (s : Unrolling.Settings) (e : Enclosure) (text : String)
    (r : ReplacementText) :
    ({ s with text := some r } : Unrolling.Settings).placed [e.node text] =
      [⟨(e.node text).tag.appendText r.whole, []⟩] := by
  cases e <;> simp [Unrolling.Settings.placed, Unrolling.placeText,
    Node.modifyLast, Node.modifyDeepest, node, Tag.appendText]

theorem node_inj {e : Enclosure} {text text' : String} :
    e.node text = e.node text' ↔ text = text' := by
  cases e <;> simp [node]

/-- Whatever the characters of a text are, with a backslash in front of each
they become the text of the element, or of its attribute, and nothing else; a
replacement text comes behind the element's own. -/
theorem ofSource?_escape (jsx : Bool) (s : Unrolling.Settings) (e : Enclosure)
    {text : String} (hne : text ≠ "") :
    Node.ofSource? jsx { s with text := none }
      (e.source (String.ofList (escape text.toList))) =
        .ok ⟨[e.node text], 0⟩ ∧
      ∀ r, Node.ofSource? jsx { s with text := some r }
          (e.source (String.ofList (escape text.toList))) =
        .ok ⟨[⟨(e.node text).tag.appendText r.whole, []⟩], 0⟩ := by
  have hspeaks : e.Speaks (escape text.toList) text := by
    simpa using e.speaks_escape text.toList
  have hread := ofSource?_of_speaks hspeaks hne jsx
  refine ⟨hread _, ?_⟩
  intro r
  rw [hread, placed_node]

/-- A text without `$` and backslash that its enclosure ends behind becomes the
text of the element, or of its attribute, with the counts at its head written
anew.  So it is kept exactly if these are canonical: no zero in front of other
digits, and no count above the largest word. -/
theorem ofSource?_verbatim_iff (jsx : Bool) (s : Unrolling.Settings)
    (e : Enclosure) {text : String} (hne : text ≠ "")
    (hadmits : e.Admits text.toList) :
    Node.ofSource? jsx s (e.source text) =
        .ok ⟨s.placed [e.node (String.ofList (reread text.toList))], 0⟩ ∧
      (Node.ofSource? jsx { s with text := none } (e.source text) =
        .ok ⟨[e.node text], 0⟩ ↔
        ∀ ds ∈ headCounts text.toList, Numeral.IsCanonical ds) := by
  have hsome : String.ofList (reread text.toList) ≠ "" := by
    have hnil := reread_ne_nil (String.toList_eq_nil_iff.not.2 hne)
    rwa [ne_eq, ← String.toList_eq_nil_iff, String.toList_ofList]
  have hread : ∀ s, Node.ofSource? jsx s (e.source text) =
      .ok ⟨s.placed [e.node (String.ofList (reread text.toList))], 0⟩ := by
    intro s
    have hspeaks := ofSource?_of_speaks (speaks_reread hadmits) hsome jsx s
    rwa [String.ofList_toList] at hspeaks
  refine ⟨hread s, ?_⟩
  have hsame : String.ofList (reread text.toList) = text ↔
      reread text.toList = text.toList := by
    rw [← String.toList_inj, String.toList_ofList]
  have hplain : ∀ nodes,
      ({ s with text := none } : Unrolling.Settings).placed nodes = nodes :=
    fun _ => rfl
  rw [hread, hplain, ← reread_eq_self_iff, ← hsame]
  simp [node_inj]

namespace VerbatimWitness

/-- No mark within the quotes ends them, or counts, or escapes once it is
escaped. -/
theorem ofSource?_escape_marks :
    "\"$*\\" ≠ "" ∧
      Node.ofSource? false {} "p[t=\"\\\"\\$\\*\\\\\"]" =
        .ok ⟨[(quotes false).node "\"$*\\"], 0⟩ := by
  have hne : "\"$*\\" ≠ "" := by decide
  have hsource : (quotes false).source
      (String.ofList (escape "\"$*\\".toList)) = "p[t=\"\\\"\\$\\*\\\\\"]" := by
    decide
  have hread := (ofSource?_escape false {} (quotes false) hne).1
  rw [hsource] at hread
  exact ⟨hne, hread⟩

/-- A blank and a count at the head of a text with braces of its own. -/
theorem ofSource?_verbatim_counted :
    braces.Admits " *3\x7ba\x7d".toList ∧
      Node.ofSource? false {} "p\x7b *3\x7ba\x7d\x7d" =
        .ok ⟨[braces.node " *3\x7ba\x7d"], 0⟩ := by
  have hadmits : braces.Admits " *3\x7ba\x7d".toList :=
    ⟨by decide, by decide, rfl⟩
  have hsource : braces.source " *3\x7ba\x7d" = "p\x7b *3\x7ba\x7d\x7d" := by
    decide
  have hcounts : ∀ ds ∈ headCounts " *3\x7ba\x7d".toList,
      Numeral.IsCanonical ds := by
    have hhead : headCounts " *3\x7ba\x7d".toList = [['3']] := by cbv
    rw [hhead]
    simp [Numeral.IsCanonical, Numeral.digitsValue, Numeral.wordMax]
  have hread :=
    (ofSource?_verbatim_iff false {} braces (by decide) hadmits).2.2 hcounts
  rw [hsource] at hread
  exact ⟨hadmits, hread⟩

/-- The zero in front of a count at the head of a text is lost. -/
theorem ofSource?_rewrites_count :
    braces.Admits "*05".toList ∧
      Node.ofSource? false {} (braces.source "*05") =
        .ok ⟨[braces.node "*5"], 0⟩ ∧
      Node.ofSource? false {} (braces.source "*05") ≠
        .ok ⟨[braces.node "*05"], 0⟩ := by
  have hadmits : braces.Admits "*05".toList := ⟨by decide, by decide, rfl⟩
  have hcount : rewritten ['0', '5'] = ['5'] := by decide
  have hreread : reread "*05".toList = "*5".toList := by
    simp [reread, isSpace, hcount]
  have hspeaks : braces.Speaks "*05".toList "*5" := by
    have hrewritten := speaks_reread hadmits
    rwa [hreread, String.ofList_toList] at hrewritten
  have hread : Node.ofSource? false {} (braces.source "*05") =
      .ok ⟨[braces.node "*5"], 0⟩ :=
    ofSource?_of_speaks hspeaks (by decide) false {}
  refine ⟨hadmits, hread, ?_⟩
  rw [hread]
  simp [node_inj]

end VerbatimWitness

end Lexer.Enclosure

end Scaffold

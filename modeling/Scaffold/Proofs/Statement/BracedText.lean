import Mathlib
import Scaffold.Proofs.Statement.Reading
import Scaffold.Proofs.Token.TextBody
/-!
How the parser reads a text between braces.  It takes the tokens up to the first
closing brace that no opening one belongs to.  The tokens of a text have no
opening braces, so that is the end of the text if none of them is a closing one;
any other text ends too early, and what comes behind it is never read to its
end.  Main statement: `parse_tokenize_text`.
-/
namespace Scaffold

namespace Token

/-- A token of a text, which may end in front of its last one. -/
def IsStray (t : Token) : Prop := t.isTextPart = true ∨ t.isClosingBrace = true

theorem IsStray.isOperator {t : Token} (h : t.IsStray) (op : Operator) :
    t.isOperator op = false := by
  rcases t with ⟨kind, _, _⟩
  rcases h with h | h
  · cases kind <;> first | rfl | cases h
  · obtain rfl := beq_iff_eq.1 h
    rfl

theorem IsStray.isBracket {t : Token} (h : t.IsStray) {kind : BracketKind}
    {opens : Bool} (hbracket : kind ≠ .expression ∨ opens = true) :
    t.isBracket kind opens = false := by
  rcases t with ⟨tkind, _, _⟩
  rcases h with h | h
  · cases tkind <;> first | rfl | cases h
  · obtain rfl := beq_iff_eq.1 h
    cases kind <;> cases opens <;> simp_all [Token.isBracket]

theorem isClosingBrace_of_isTextPart {t : Token} (h : t.isTextPart = true) :
    t.isClosingBrace = false := by
  rcases t with ⟨kind, _, _⟩
  cases kind <;> first | rfl | cases h

theorem isTextPart_of_isNamePart {t : Token} (h : t.isNamePart = true) :
    t.isTextPart = true := by
  rcases t with ⟨kind, _, _⟩
  cases kind <;> first | rfl | cases h

end Token

namespace Statement.Parser

/-- The number of braces that close a text too early. -/
def earlyEnds (ts : List Token) : Nat := ts.countP Token.isClosingBrace

/-- A text ends at the first brace that closes. -/
theorem textLength?_eq {inner : List Token}
    (hinner : ∀ t ∈ inner, t.isTextPart = true) {stop : Token}
    (hstop : stop.isClosingBrace = true) (rest : List Token) :
    textLength? 0 (inner ++ stop :: rest) = some inner.length := by
  induction inner with
  | nil =>
      have hopen : stop.isBracket .expression true = false := by
        rw [Token.isBracket, beq_iff_eq.1 hstop]
        rfl
      have hclose : stop.isBracket .expression false = true := hstop
      simp [textLength?, hopen, hclose]
  | cons t inner ih =>
      obtain ⟨ht, hinner⟩ := List.forall_mem_cons.1 hinner
      have hopen : t.isBracket .expression true = false :=
        Token.IsStray.isBracket (.inl ht) (.inr rfl)
      have hclose : t.isBracket .expression false = false :=
        Token.isClosingBrace_of_isTextPart ht
      simp [textLength?, hopen, hclose, ih hinner]

section Stray

variable (jsx : Bool) {ts : List Token}

/-- Nothing but a repeater makes an element read on. -/
theorem elementParts_stop (e : ElementTokens) (hts : ∀ t ∈ ts, t.IsStray)
    (hstop : ∀ t ∈ ts.head?, t.repeater? = none ∨
      (e.repeater.isNone && !e.isEmpty) = false) :
    elementParts jsx e ts = .ok (e, 0) := by
  cases ts with
  | nil => exact elementParts_nil jsx e
  | cons t rest =>
      have ht := hts t List.mem_cons_self
      have htext : text? (t :: rest) = .ok none := by simp [text?, ht.isBracket]
      have hshorthand : shorthand? jsx (t :: rest) = .ok none := by
        have hoperator := ht.isOperator
        rw [shorthand?]
        split
        · next op hop => simp [Token.isOperator, hop] at hoperator
        · rfl
      have hclosing : closing e t rest = (e, 0) := by
        simp [closing, ht.isOperator]
      rw [elementParts]
      rcases hstop t rfl with h | h <;>
        simp [h, htext, hshorthand, hclosing, ht.isBracket]

/-- Behind a text that ended too early an element takes a repeater at most, and
no brace. -/
theorem elementParts_stray (e : ElementTokens) (hts : ∀ t ∈ ts, t.IsStray) :
    ∃ e' n, elementParts jsx e ts = .ok (e', n) ∧ e'.isEmpty = e.isEmpty ∧
      (e.isEmpty = true → n = 0) ∧ earlyEnds (ts.drop n) = earlyEnds ts := by
  by_cases hstop : ∀ t ∈ ts.head?, t.repeater? = none ∨
    (e.repeater.isNone && !e.isEmpty) = false
  · exact ⟨e, 0, elementParts_stop jsx e hts hstop, rfl, fun _ => rfl, rfl⟩
  · cases ts with
    | nil => simp at hstop
    | cons t rest =>
        obtain ⟨-, hrest⟩ := List.forall_mem_cons.1 hts
        simp only [List.head?_cons, Option.mem_some_iff, forall_eq', not_or,
          Bool.not_eq_false] at hstop
        obtain ⟨hrepeater, hreads⟩ := hstop
        obtain ⟨r, hr⟩ := Option.ne_none_iff_exists'.1 hrepeater
        have hread : elementParts jsx { e with repeater := some r } rest =
            .ok ({ e with repeater := some r }, 0) :=
          elementParts_stop jsx _ hrest fun _ _ => .inr rfl
        refine ⟨{ e with repeater := some r }, 1, ?_, rfl, ?_, ?_⟩
        · rw [elementParts]
          simp [hr, hreads, hread]
        · intro hempty
          simp [hempty] at hreads
        · have hopen : t.isClosingBrace = false := by
            rcases t with ⟨kind, _, _⟩
            cases kind <;> first | rfl | cases hr
          simp [earlyEnds, hopen]

/-- The name of an element takes no brace. -/
theorem earlyEnds_drop_takeWhile_isNamePart (ts : List Token) :
    earlyEnds (ts.drop (ts.takeWhile Token.isNamePart).length) =
      earlyEnds ts := by
  induction ts with
  | nil => rfl
  | cons t rest ih =>
      by_cases ht : t.isNamePart = true
      · have hopen : t.isClosingBrace = false :=
          Token.isClosingBrace_of_isTextPart (Token.isTextPart_of_isNamePart ht)
        simpa [ht, earlyEnds, hopen] using ih
      · simp [ht]

theorem earlyEnds_drop_nameLength (hts : ∀ t ∈ ts, t.IsStray) :
    earlyEnds (ts.drop (nameLength jsx ts)) = earlyEnds ts := by
  cases ts with
  | nil => simp
  | cons t rest =>
      obtain ⟨-, hrest⟩ := List.forall_mem_cons.1 hts
      have hmember : memberLength rest = 0 := by
        apply memberLength_eq_zero
        intro u hu
        exact (hrest u (List.mem_of_mem_head? hu)).isOperator .className
      rw [nameLength, ← List.drop_drop, earlyEnds_drop_takeWhile_isNamePart]
      simp only [hmember]
      split
      · next hcapital =>
          have hopen : t.isClosingBrace = false := by
            rcases t with ⟨kind, _, _⟩
            cases kind <;> first | rfl | simp [Token.isCapitalized] at hcapital
          simp [earlyEnds, hopen]
      · rfl

theorem element?_stray (hts : ∀ t ∈ ts, t.IsStray) :
    element? jsx ts = .ok none ∨
      ∃ e n, element? jsx ts = .ok (some (e, n + 1)) ∧
        earlyEnds (ts.drop (n + 1)) = earlyEnds ts := by
  have hbehind : ∀ t ∈ ts.drop (nameLength jsx ts), t.IsStray :=
    fun t ht => hts t (List.mem_of_mem_drop ht)
  have hname := earlyEnds_drop_nameLength jsx hts
  cases hn : nameLength jsx ts with
  | zero =>
      rw [hn] at hbehind
      obtain ⟨e, n, hread, hempty, -, -⟩ := elementParts_stray jsx {} hbehind
      refine .inl ?_
      simp only [element?, hn, if_true, hread, hempty]
      rfl
  | succ n =>
      rw [hn] at hbehind hname
      obtain ⟨e, m, hread, hempty, -, hends⟩ :=
        elementParts_stray jsx { name := some (ts.take (n + 1)) } hbehind
      refine .inr ⟨e, n + m, ?_, ?_⟩
      · simp only [element?, hn, Nat.succ_ne_zero, if_false, hread, hempty]
        simp [ElementTokens.isEmpty, Nat.add_right_comm]
      · rw [Nat.add_right_comm, ← List.drop_drop, hends, hname]

/-- No operator leads on behind an element. -/
theorem follow_stray (path : Path) (s : Statement) (hts : ∀ t ∈ ts, t.IsStray) :
    follow path s ts = (path.attach s, 0) := by
  have hnone : ∀ t ∈ ([] : List Token), t.kind = .operator .climb := by simp
  exact follow_climbs hnone
    (fun t ht op => (hts t (List.mem_of_mem_head? ht)).isOperator op) s

/-- What comes behind a text that ended too early has a brace in it that nothing
can take. -/
theorem statementsFrom_stray (path : Path) (hts : ∀ t ∈ ts, t.IsStray)
    (hends : 0 < earlyEnds ts) :
    ∃ fault, statementsFrom jsx [] path ts = .error fault := by
  induction hlen : ts.length using Nat.strongRecOn generalizing ts path with
  | ind len ih =>
    cases ts with
    | nil => simp [earlyEnds] at hends
    | cons t rest =>
        have ht := hts t List.mem_cons_self
        rcases element?_stray jsx hts with hread | ⟨e, n, hread, hkept⟩
        · exact ⟨_,
            by rw [statementsFrom.eq_def]; simp [hread, ht.isBracket]; rfl⟩
        · have hbehind : ∀ u ∈ rest.drop n, u.IsStray := fun u hu =>
            hts u (List.mem_cons_of_mem t (List.mem_of_mem_drop hu))
          rw [statementsFrom.eq_def]
          simp only [hread, Nat.add_sub_cancel, follow_stray _ _ hbehind,
            List.drop_zero]
          apply ih (rest.drop n).length _ _ hbehind _ rfl
          · rw [List.length_drop, ← hlen, List.length_cons]
            omega
          · rwa [← hkept] at hends

end Stray

/-! ### An element with a text -/

section Element

variable (jsx : Bool) (name : String)

/-- A name and a text behind it are an element up to the first brace that
closes. -/
theorem element?_text {inner rest : List Token}
    (hinner : ∀ t ∈ inner, t.isTextPart = true) (hrest : ∀ t ∈ rest, t.IsStray)
    (stop : Token) (hstop : stop.isClosingBrace = true) (a b c : Nat) :
    ∃ e n, element? jsx
      (⟨.literal name, a, b⟩ :: ⟨.bracket .expression true, b, c⟩ ::
        (inner ++ stop :: rest)) = .ok (some (e, n + inner.length + 3)) ∧
      earlyEnds (rest.drop n) = earlyEnds rest ∧
      (rest = [] → n = 0 ∧
        e = { name := some [⟨.literal name, a, b⟩], value := some inner }) := by
  obtain ⟨e, n, hread, hempty, -, hends⟩ := elementParts_stray jsx
    { name := some [⟨.literal name, a, b⟩], value := some inner } hrest
  have hname : nameLength jsx
      (⟨.literal name, a, b⟩ :: ⟨.bracket .expression true, b, c⟩ ::
      (inner ++ stop :: rest)) = 1 := by
    apply nameLength_literal jsx rfl <;> intro t ht <;> obtain rfl :=
      Option.some.inj ht <;> rfl
  have htext :
      text? (⟨.bracket .expression true, b, c⟩ :: (inner ++ stop :: rest)) =
      .ok (some inner.length) := by
    simp [text?, Token.isBracket, textLength?_eq hinner hstop]
  have hbehind : (inner ++ stop :: rest).drop (inner.length + 1) = rest := by
    rw [← List.drop_drop, List.drop_left, List.drop_succ_cons, List.drop_zero]
  have hparts : elementParts jsx { name := some [⟨.literal name, a, b⟩] }
      (⟨.bracket .expression true, b, c⟩ :: (inner ++ stop :: rest)) =
        .ok (e, inner.length + 2 + n) := by
    rw [elementParts]
    simp [Token.repeater?, htext, hbehind, hread]
  refine ⟨e, n, ?_, hends, ?_⟩
  · have hsome : e.isEmpty = false := hempty
    have hlength : 1 + (inner.length + 2 + n) = n + inner.length + 3 := by omega
    simp [element?, hname, hparts, hsome, hlength]
  · rintro rfl
    rw [elementParts_nil] at hread
    cases hread
    exact ⟨rfl, rfl⟩

end Element

/-- Where no brace ends the text early, its tokens are the value of the only
element. -/
theorem parse_text (jsx : Bool) (name : String) {inner : List Token}
    (hinner : ∀ t ∈ inner, t.isTextPart = true) {stop : Token}
    (hstop : stop.isClosingBrace = true) (a b c : Nat) :
    parse jsx (⟨.literal name, a, b⟩ :: ⟨.bracket .expression true, b, c⟩ ::
      (inner ++ [stop])) =
      .ok [.element { name := some [⟨.literal name, a, b⟩],
                      value := some inner } []] := by
  obtain ⟨e, n, hread, -, hrest⟩ :=
    element?_text jsx name hinner (List.forall_mem_nil _) stop hstop a b c
  obtain ⟨rfl, rfl⟩ := hrest rfl
  have hbehind : (⟨.bracket .expression true, b, c⟩ :: (inner ++ [stop])).drop
      (0 + inner.length + 3 - 1) = [] := by
    rw [List.drop_eq_nil_iff]
    simp only [List.length_cons, List.length_append, List.length_nil]
    omega
  rw [parse, statementsFrom.eq_def]
  simp only [hread, hbehind, follow, List.drop_nil]
  rw [statementsFrom]
  rfl

/-- The first brace that ends a text early. -/
theorem exists_earlyEnd {ts : List Token} (hts : ∀ t ∈ ts, t.IsStray)
    (hends : 0 < earlyEnds ts) :
    ∃ (inner : List Token) (stop : Token) (rest : List Token),
    ts = inner ++ stop :: rest ∧
      (∀ t ∈ inner, t.isTextPart = true) ∧ stop.isClosingBrace = true := by
  induction ts with
  | nil => simp [earlyEnds] at hends
  | cons t ts ih =>
      obtain ⟨ht, hts⟩ := List.forall_mem_cons.1 hts
      rcases ht with hpart | hclosing
      · have hopen := Token.isClosingBrace_of_isTextPart hpart
        obtain ⟨inner, stop, rest, rfl, hinner, hstop⟩ :=
          ih hts (by simpa [earlyEnds, hopen] using hends)
        exact ⟨t :: inner, stop, rest, rfl,
          List.forall_mem_cons.2 ⟨hpart, hinner⟩, hstop⟩
      · exact ⟨[], t, ts, rfl, List.forall_mem_nil _, hclosing⟩

/-- Where a brace ends the text early, the tokens are no statements. -/
theorem parse_text_of_earlyEnds (jsx : Bool) (name : String) {ts : List Token}
    (hts : ∀ t ∈ ts, t.IsStray) (hends : 0 < earlyEnds ts) {close : Token}
    (hclose : close.isClosingBrace = true) (a b c : Nat) :
    ∃ fault, parse jsx
      (⟨.literal name, a, b⟩ :: ⟨.bracket .expression true, b, c⟩ ::
      (ts ++ [close])) = .error fault := by
  obtain ⟨inner, stop, rest, rfl, hinner, hstop⟩ := exists_earlyEnd hts hends
  have hrest : ∀ t ∈ rest ++ [close], t.IsStray := by
    intro t ht
    rcases List.mem_append.1 ht with ht | ht
    · exact hts t (List.mem_append_right inner (List.mem_cons_of_mem stop ht))
    · obtain rfl := List.mem_singleton.1 ht
      exact .inr hclose
  obtain ⟨e, n, hread, hkept, -⟩ :=
    element?_text jsx name hinner hrest stop hstop a b c
  have hbehind : (⟨.bracket .expression true, b, c⟩ ::
      (inner ++ stop :: (rest ++ [close]))).drop (n + inner.length + 3 - 1) =
        (rest ++ [close]).drop n := by
    have hlength : n + inner.length + 3 - 1 = inner.length + (n + 1) + 1 := by
      omega
    rw [hlength, List.drop_succ_cons, ← List.drop_drop, List.drop_left,
      List.drop_succ_cons]
  have hstray : ∀ t ∈ (rest ++ [close]).drop n, t.IsStray :=
    fun t ht => hrest t (List.mem_of_mem_drop ht)
  have hlast : 0 < earlyEnds ((rest ++ [close]).drop n) := by
    rw [hkept, earlyEnds, List.countP_append, List.countP_singleton,
      if_pos hclose]
    exact Nat.succ_pos _
  rw [List.append_assoc, List.cons_append, parse, statementsFrom.eq_def]
  simp only [hread, hbehind, follow_stray _ _ hstray, List.drop_zero]
  exact statementsFrom_stray jsx _ hstray hlast

end Statement.Parser

namespace Lexer

/-- The tokens in front of a text. -/
theorem tokensFrom_name {cs : List Char} {tokens : List Token}
    (htokens : tokensFrom (within 0) (some '{') 2 cs = .ok tokens) :
    tokensFrom {} none 0 ('p' :: '{' :: cs) =
      .ok (⟨.literal "p", 0, 1⟩ :: ⟨.bracket .expression true, 1, 2⟩ ::
        tokens) := by
  have hname : lexeme? {} none 0 ('p' :: '{' :: cs) =
      .ok (some { kind := .literal "p", length := 1, context := {} }) := rfl
  have hopen : lexeme? {} (some 'p') 1 ('{' :: cs) =
      .ok (some { kind := .bracket .expression true, length := 1,
                  context := within 0 }) := rfl
  exact tokensFrom_of_lexeme? (by simp) hname
    (tokensFrom_of_lexeme? (by simp) hopen htokens)

end Lexer

namespace Statement

/-- The element `p` with a text is read as one element, whose value is exactly
the text, if the numbers and fields of the text stand outside nested braces.  A
nested brace in front of a number or a field is never closed for the parser, so
any other text is an error. -/
theorem parse_tokenize_text (jsx : Bool) {body : String}
    (h : Lexer.Body true 0 body.toList) :
    ∃ tokens, tokenize ("p\x7b" ++ body ++ "\x7d") = .ok tokens ∧
      (Lexer.Body false 0 body.toList → ∃ value,
        parse jsx tokens =
          .ok [.element { name := some [⟨.literal "p", 0, 1⟩],
                          value := some value } []] ∧
        Token.Tile value 2 (2 + body.length)) ∧
      (¬ Lexer.Body false 0 body.toList →
        ∃ fault, parse jsx tokens = .error fault) := by
  have hsource : ("p\x7b" ++ body ++ "\x7d").toList =
      'p' :: '{' :: (body.toList ++ ['}']) := by
    simp
  obtain ⟨tokens, htokens, hcovers⟩ := Lexer.tokensFrom_body h (some '{') 2
  refine ⟨_, by rw [tokenize, hsource, Lexer.tokensFrom_name htokens], ?_, ?_⟩
  · intro hflat
    obtain ⟨tokens', htokens', hcovers'⟩ :=
      Lexer.tokensFrom_body hflat (some '{') 2
    rw [htokens] at htokens'
    obtain rfl := List.append_cancel_right (Except.ok.inj htokens')
    have hnone := List.countP_eq_zero.1 (hcovers'.flat rfl rfl)
    have hparts : ∀ t ∈ tokens, t.isTextPart = true :=
      fun t ht => (hcovers'.parts t ht).resolve_right (hnone t ht)
    exact ⟨tokens, Parser.parse_text jsx "p" hparts rfl 0 1 2, hcovers'.tile⟩
  · intro hdeep
    have hends : 0 < Parser.earlyEnds tokens :=
      Nat.pos_of_ne_zero fun hnone => hdeep (hcovers.back hnone)
    exact Parser.parse_text_of_earlyEnds jsx "p" hcovers.parts hends rfl 0 1 2

namespace BracedTextWitness

/-- A text whose nested braces hold plain characters only. -/
theorem body_flat : Lexer.Body false 0 "\x7ba\x7d$".toList :=
  .opened
    (.plain rfl (.closed (.run 0 (.inr rfl) (by decide) (by decide) .nil)))

/-- A text with a number within nested braces. -/
theorem body_deep : Lexer.Body true 0 "\x7b$\x7d".toList :=
  .opened (.run 0 (.inl rfl) (by decide) (by decide) (.closed .nil))

theorem parse_tokenize_text_numbered :
    Lexer.Body true 0 "\x7ba\x7d$".toList ∧
      ∃ tokens value, tokenize ("p\x7b" ++ "\x7ba\x7d$" ++ "\x7d") =
        .ok tokens ∧
        parse true tokens =
          .ok [.element { name := some [⟨.literal "p", 0, 1⟩],
                          value := some value } []] ∧
        Token.Tile value 2 (2 + "\x7ba\x7d$".length) := by
  have hbody : Lexer.Body true 0 "\x7ba\x7d$".toList :=
    .opened
      (.plain rfl (.closed (.run 0 (.inl rfl) (by decide) (by decide) .nil)))
  obtain ⟨tokens, htokens, hread, -⟩ := parse_tokenize_text true hbody
  obtain ⟨value, hparse, htile⟩ := hread body_flat
  exact ⟨hbody, tokens, value, htokens, hparse, htile⟩

/-- The brace behind the number ends the text, and the one behind it is one too
many. -/
theorem parse_tokenize_nested_number :
    Lexer.Body true 0 "\x7b$\x7d".toList ∧
      (tokenize ("p\x7b" ++ "\x7b$\x7d" ++ "\x7d") >>= parse false) =
        .error (AbbreviationFault.strayCharacter.atOffset 5) :=
  ⟨body_deep, by cbv⟩

end BracedTextWitness

end Statement

end Scaffold

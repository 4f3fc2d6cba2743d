import Scaffold.Proofs.Statement.Written
import Scaffold.Proofs.Token.Nesting
/-!
Brackets and quotes of the parts that the parser reads.  Each reader takes
tokens that close no bracket but their own, and whose quotes come in pairs.  The
brackets of quoted values, of texts and of sets are closed as well; a literal of
an attribute counts the brackets of each kind on their own, so it may leave some
open, or close them crosswise.  Main statements: `takes_literalLength_true`,
`takes_attributeSet`.
-/
namespace Scaffold

/-- The brackets of an attribute's name and those of its value are nested and
closed. -/
def AttributeTokens.IsNested (a : AttributeTokens) : Prop :=
  Token.Nested (a.name.getD []) ∧ Token.Nested (a.value.getD [])

namespace Statement.Parser

open Token Lexer

/-- A reader takes some of the tokens ahead: they close what they open, up to
those that need not be nested, and leave no quote open. -/
structure Takes (ts : List Token) (n : Nat) (P : Prop) : Prop where
  closed : Closed (ts.take n)
  nested : Nested (ts.take n) ↔ P
  unquoted : Unquoted (ts.drop n)

section Takes

variable {ts : List Token} {n m : Nat} {P Q : Prop}

theorem Takes.of_append {piece rest : List Token}
    (hpiece : Closed piece ∧ (Nested piece ↔ P)) (hrest : Unquoted rest) :
    Takes (piece ++ rest) piece.length P := by
  refine ⟨?_, ?_, ?_⟩
  · rw [List.take_left]
    exact hpiece.1
  · rw [List.take_left]
    exact hpiece.2
  · rwa [List.drop_left]

theorem Takes.congr (h : Takes ts n P) (hiff : P ↔ Q) : Takes ts n Q :=
  ⟨h.closed, h.nested.trans hiff, h.unquoted⟩

theorem Takes.trans (h : Takes ts n P) (h' : Takes (ts.drop n) m Q) :
    Takes ts (n + m) (P ∧ Q) := by
  refine ⟨?_, ?_, ?_⟩
  · rw [List.take_add]
    exact h.closed.append h'.closed
  · rw [List.take_add, nested_append h'.closed, h.nested, h'.nested]
  · rw [← List.drop_drop]
    exact h'.unquoted

theorem takes_of_isPlain (hts : Unquoted ts)
    (hplain : ∀ t ∈ ts.take n, t.kind.isPlain = true) : Takes ts n True := by
  obtain ⟨hclosed, hnested⟩ := closed_of_isPlain hplain
  refine ⟨hclosed, iff_true_intro hnested, ?_⟩
  clear hclosed hnested
  induction n generalizing ts with
  | zero => exact hts
  | succ n ih =>
      cases ts with
      | nil => exact hts
      | cons t ts =>
          obtain ⟨ht, hplain⟩ := List.forall_mem_cons.1 hplain
          exact ih (hts.of_isPlain ht) hplain

theorem Takes.zero (hts : Unquoted ts) : Takes ts 0 True :=
  takes_of_isPlain hts (by simp)

theorem takes_takeWhile (hts : Unquoted ts) {p : Token → Bool}
    (hp : ∀ t, p t = true → t.kind.isPlain = true) :
    Takes ts (ts.takeWhile p).length True := by
  refine takes_of_isPlain hts fun t ht => ?_
  rw [← List.prefix_iff_eq_take.1 (List.takeWhile_prefix p)] at ht
  exact hp t (List.mem_takeWhile_imp ht)

/-- All is closed in the end if what was taken is nested and all is closed
behind it, as long as what comes behind closes no more than is open. -/
theorem Takes.nest_eq_nil_iff (h : Takes ts n P) (opened : List BracketKind)
    (hdeeper : ∀ inner : List BracketKind, opened.length < inner.length →
      nest inner (ts.drop n) ≠ some []) :
    nest opened ts = some [] ↔ P ∧ nest opened (ts.drop n) = some [] := by
  conv_lhs => rw [← List.take_append_drop n ts, nest_append, h.closed.nests]
  rw [← h.nested, Nested]
  cases nest [] (ts.take n) with
  | none => simp
  | some left =>
      cases left with
      | nil => simp
      | cons kind left =>
          have hlonger := hdeeper (kind :: left ++ opened) (by simp)
          simpa using hlonger

theorem Takes.nest_ne_nil (h : Takes ts n P) {depth : Nat}
    (hdeeper : ∀ inner : List BracketKind, depth < inner.length →
      nest inner (ts.drop n) ≠ some []) {opened : List BracketKind}
    (hopened : depth < opened.length) : nest opened ts ≠ some [] := by
  intro hnest
  have hlonger : ∀ inner : List BracketKind, opened.length < inner.length →
      nest inner (ts.drop n) ≠ some [] := fun inner hinner =>
    hdeeper inner (Nat.lt_trans hopened hinner)
  exact hdeeper opened hopened ((h.nest_eq_nil_iff opened hlonger).1 hnest).2

theorem Takes.quoted (h : Takes ts n P) (hrest : Quoted (ts.drop n)) :
    Quoted ts := by
  rw [← List.take_append_drop n ts, Quoted, List.filterMap_append]
  exact h.closed.quoted.append hrest

end Takes

/-! ### Quotes and texts -/

/-- Tokens go on up to one of a kind, which is the first that is a bracket or a
quote. -/
def UpTo (kind : TokenKind) (ts : List Token) (n : Nat) : Prop :=
  ∃ body t rest, ts = body ++ t :: rest ∧ body.length = n ∧
    (∀ u ∈ body, u.kind.isPlain = true) ∧ t.kind = kind ∧ Unquoted rest

theorem UpTo.zero {t : Token} {rest : List Token} (hrest : Unquoted rest) :
    UpTo t.kind (t :: rest) 0 :=
  ⟨[], t, rest, rfl, rfl, by simp, rfl, hrest⟩

theorem UpTo.cons {kind : TokenKind} {t : Token} {ts : List Token} {n : Nat}
    (ht : t.kind.isPlain = true) (h : UpTo kind ts n) :
    UpTo kind (t :: ts) (n + 1) := by
  obtain ⟨body, close, rest, rfl, rfl, hbody, hclose, hrest⟩ := h
  exact ⟨t :: body, close, rest, rfl, rfl, List.forall_mem_cons.2 ⟨ht, hbody⟩,
    hclose, hrest⟩

theorem upTo_of_quotedLength? {single : Bool} {ts : List Token} {n : Nat}
    (hts : Orderly (.quoted single) ts) (h : quotedLength? single ts = some n) :
    UpTo (.quote single) ts n := by
  induction ts generalizing n with
  | nil => cases h
  | cons t ts ih =>
      rw [quotedLength?, isQuote] at h
      rcases hts.of_quoted with ⟨ht, hrest⟩ | ⟨ht, hrest⟩
      · have hother : (t.kind == .quote single) = false := by
          cases hkind : t.kind <;> simp_all [TokenKind.isPlain]
        rw [hother] at h
        obtain ⟨m, hm, rfl⟩ := Option.map_eq_some_iff.1 h
        exact (ih hrest hm).cons ht
      · rw [ht, beq_self_eq_true] at h
        cases h
        exact ht ▸ .zero hrest

theorem upTo_of_textLength? {ts : List Token} {n : Nat} (hts : Orderly .text ts)
    (h : textLength? 0 ts = some n) :
    UpTo (.bracket .expression false) ts n := by
  induction ts generalizing n with
  | nil => cases h
  | cons t ts ih =>
      rw [textLength?, isBracket, isBracket] at h
      rcases hts.of_text with ⟨ht, hrest⟩ | ⟨ht, hrest⟩
      · have hother : ∀ opens, (t.kind == .bracket .expression opens) =
            false := by
          intro opens
          cases hkind : t.kind <;> simp_all [TokenKind.isPlain]
        rw [hother, hother] at h
        obtain ⟨m, hm, rfl⟩ := Option.map_eq_some_iff.1 h
        exact (ih hrest hm).cons ht
      · simp only [ht] at h
        cases h
        exact ht ▸ .zero hrest

/-- A quoted value takes its two quotes and what is between them. -/
theorem takes_quoted {ts : List Token} {n : Nat} (hts : Unquoted ts)
    (h : quoted ts = .ok n) : Takes ts n True := by
  cases ts with
  | nil =>
      cases h
      exact .zero hts
  | cons t ts =>
      rw [Parser.quoted] at h
      split at h
      · next single ht =>
          split at h
          · next m hm =>
              cases h
              obtain ⟨body, close, rest, rfl, rfl, hbody, hclose, hrest⟩ :=
                upTo_of_quotedLength? (hts.quoted ht) hm
              obtain ⟨hclosed, hnested⟩ := closed_quoted ht hclose hbody
              have htakes :=
                Takes.of_append ⟨hclosed, iff_true_intro hnested⟩ hrest
              simpa using htakes
          · cases h
      · cases h
        exact .zero hts

/-- A text takes its two braces and what is between them. -/
theorem takes_text? {ts : List Token} {n : Nat} (hts : Unquoted ts)
    (h : text? ts = .ok (some n)) :
    Takes ts (n + 2) True ∧ Nested ((ts.drop 1).take n) := by
  cases ts with
  | nil => cases h
  | cons t ts =>
      rw [text?] at h
      split at h
      · next hopen =>
          have ht := kind_of_isBracket hopen
          split at h
          · next m hm =>
              cases h
              obtain ⟨body, close, rest, rfl, rfl, hbody, hclose, hrest⟩ :=
                upTo_of_textLength? (hts.text ht) hm
              obtain ⟨hclosed, hnested⟩ := closed_of_isPlain hbody
              obtain ⟨henclosed, hiff⟩ := hclosed.enclose ht hclose
              have htakes := Takes.of_append ⟨henclosed,
                hiff.trans (iff_true_intro hnested)⟩ hrest
              exact ⟨by simpa using htakes, by simpa using hnested⟩
          · cases h
      · cases h

/-! ### Literals -/

theorem Depths.get_set (d : Depths) (kind other : BracketKind) (n : Nat) :
    (d.set kind n).get other = if other = kind then n else d.get other := by
  cases kind <;> cases other <;> rfl

/-- A literal without brackets. -/
theorem takes_literalLength_false {ts : List Token} (hts : Unquoted ts) :
    Takes ts (literalLength false {} ts) True := by
  refine takes_of_isPlain hts ?_
  clear hts
  induction ts with
  | nil => simp [literalLength]
  | cons t ts ih =>
      rw [literalLength]
      cases hkind : t.kind with
      | bracket kind opens => cases opens <;> simp
      | _ => simp_all [TokenKind.isPlain]

/-- The brackets that a literal has opened, counted by their kinds. -/
def Counts (d : Depths) (opened : List BracketKind) : Prop :=
  ∀ kind, opened.count kind = d.get kind

theorem Counts.open {d : Depths} {opened : List BracketKind}
    (h : Counts d opened) (kind : BracketKind) :
    Counts (d.set kind (d.get kind + 1)) (kind :: opened) := by
  intro other
  rw [Depths.get_set, List.count_cons, h]
  by_cases hother : other = kind
  · simp [hother]
  · simp [hother, Ne.symm hother]

theorem Counts.close {d : Depths} {opened : List BracketKind}
    (h : Counts d opened) (kind : BracketKind) :
    Counts (d.set kind (d.get kind - 1)) (opened.erase kind) := by
  intro other
  rw [Depths.get_set, List.count_erase, h]
  by_cases hother : other = kind
  · simp [hother]
  · simp [hother, Ne.symm hother]

theorem Counts.ne_nil {d : Depths} {opened : List BracketKind}
    (h : Counts d opened) {kind : BracketKind} (hkind : d.get kind ≠ 0) :
    opened ≠ [] := by
  rintro rfl
  exact hkind (h kind).symm

/-- What is ahead in a literal: a text in its braces, or what comes outside of
quotes. -/
structure Ahead (d : Depths) (ts : List Token) : Prop where
  depth_le : d.expression ≤ 1
  text : 0 < d.expression → Orderly .text ts
  unquoted : d.expression = 0 → Unquoted ts

/-- Tokens of a literal that has opened some brackets: they close only such,
hold no quote, and leave no text open. -/
structure Continues (opened : List BracketKind) (ts : List Token) (n : Nat) :
    Prop where
  nests : ∀ outer, nest (opened ++ outer) (ts.take n) =
    (nest opened (ts.take n)).map (· ++ outer)
  quotes : (ts.take n).filterMap quote? = []
  unquoted : Unquoted (ts.drop n)

section Continues

variable {opened : List BracketKind} {t : Token} {ts : List Token} {n : Nat}

theorem Continues.zero (hts : Unquoted ts) : Continues opened ts 0 :=
  ⟨fun _ => rfl, rfl, hts⟩

theorem Continues.of_isPlain (ht : t.kind.isPlain = true)
    (h : Continues opened ts n) : Continues opened (t :: ts) (n + 1) := by
  refine ⟨fun outer => ?_, ?_, h.unquoted⟩
  · rw [List.take_succ_cons, nest_of_isPlain ht, nest_of_isPlain ht, h.nests]
  · rw [List.take_succ_cons,
      List.filterMap_cons_none (quote?_of_isPlain ht), h.quotes]

theorem quote?_of_bracket {kind : BracketKind} {opens : Bool}
    (ht : t.kind = .bracket kind opens) : t.quote? = none := by
  rw [quote?, ht]

theorem Continues.open {kind : BracketKind} (ht : t.kind = .bracket kind true)
    (h : Continues (kind :: opened) ts n) :
    Continues opened (t :: ts) (n + 1) := by
  refine ⟨fun outer => ?_, ?_, h.unquoted⟩
  · rw [List.take_succ_cons, nest_open ht, nest_open ht,
      ← List.cons_append, h.nests]
  · rw [List.take_succ_cons,
      List.filterMap_cons_none (quote?_of_bracket ht), h.quotes]

/-- A closing bracket closes the innermost one, or brackets cross. -/
theorem Continues.close {kind : BracketKind} (ht : t.kind = .bracket kind false)
    (hopened : opened ≠ []) (h : Continues (opened.erase kind) ts n) :
    Continues opened (t :: ts) (n + 1) := by
  obtain ⟨innermost, rest, rfl⟩ := List.exists_cons_of_ne_nil hopened
  refine ⟨fun outer => ?_, ?_, h.unquoted⟩
  · rw [List.take_succ_cons, List.cons_append, nest_close ht, nest_close ht]
    by_cases hkind : innermost = kind
    · subst hkind
      have hnests := h.nests outer
      rw [List.erase_cons_head] at hnests
      rw [if_pos rfl, if_pos rfl, hnests]
    · rw [if_neg hkind, if_neg hkind]
      rfl
  · rw [List.take_succ_cons,
      List.filterMap_cons_none (quote?_of_bracket ht), h.quotes]

end Continues

section Ahead

variable {d : Depths} {kind : BracketKind} {t : Token} {ts : List Token}

/-- Behind an opening bracket outside of texts. -/
theorem Ahead.of_open (h : Ahead d (t :: ts)) (hzero : d.expression = 0)
    (ht : t.kind = .bracket kind true) :
    Ahead (d.set kind (d.get kind + 1)) ts := by
  have hunquoted := h.unquoted hzero
  have hnot : ¬ 0 < d.expression := by omega
  cases kind with
  | expression =>
      have hopen :
          (d.set .expression (d.get .expression + 1)).expression = 1 := by
        simp [Depths.set, Depths.get, hzero]
      exact ⟨hopen.le, fun _ => hunquoted.text ht, fun h => by omega⟩
  | group | attributes =>
      exact ⟨h.depth_le, fun hpos => absurd hpos hnot, fun _ =>
        hunquoted.of_bracket ht (by decide)⟩

/-- Behind a closing bracket outside of texts. -/
theorem Ahead.of_close (h : Ahead d (t :: ts)) (hzero : d.expression = 0)
    (ht : t.kind = .bracket kind false) (hother : kind ≠ .expression) :
    Ahead (d.set kind (d.get kind - 1)) ts := by
  have hnot : ¬ 0 < d.expression := by omega
  cases kind with
  | expression => exact absurd rfl hother
  | group | attributes =>
      exact ⟨h.depth_le, fun hpos => absurd hpos hnot,
        fun _ => (h.unquoted hzero).of_bracket ht hother⟩

end Ahead

theorem continues_literalLength {d : Depths} {opened : List BracketKind}
    (hd : Counts d opened) {ts : List Token} (hts : Ahead d ts) :
    Continues opened ts (literalLength true d ts) := by
  induction ts generalizing d opened with
  | nil => exact .zero (.inl trivial)
  | cons t ts ih =>
      rw [literalLength]
      by_cases hdepth : 0 < d.expression
      · rw [if_pos hdepth]
        have hone : d.expression = 1 := Nat.le_antisymm hts.depth_le hdepth
        rcases (hts.text hdepth).of_text with ⟨ht, hrest⟩ | ⟨ht, hrest⟩
        · have hahead : Ahead d ts :=
            ⟨hts.depth_le, fun _ => hrest, fun h => by omega⟩
          have hbehind := (ih hd hahead).of_isPlain ht
          cases hkind : t.kind with
          | bracket | quote => simp [hkind, TokenKind.isPlain] at ht
          | _ => exact hbehind
        · have hahead : Ahead (d.set .expression (d.expression - 1)) ts := by
            refine ⟨?_, ?_, fun _ => hrest⟩ <;> simp [Depths.set, hone]
          have hget : d.get .expression ≠ 0 := by simp [Depths.get, hone]
          rw [ht]
          exact (ih (hd.close .expression) hahead).close ht (hd.ne_nil hget)
      · rw [if_neg hdepth]
        have hzero : d.expression = 0 := by omega
        have hunquoted := hts.unquoted hzero
        cases hkind : t.kind with
        | quote | operator | blank | repeater => exact .zero hunquoted
        | literal | textPlaceholder | number | field =>
            have ht : t.kind.isPlain = true := by rw [hkind]; rfl
            have hahead : Ahead d ts :=
              ⟨hts.depth_le, fun h => absurd h hdepth, fun _ =>
                hunquoted.of_isPlain ht⟩
            exact (ih hd hahead).of_isPlain ht
        | bracket kind opens =>
            cases opens with
            | true =>
                exact (ih (hd.open kind) (hts.of_open hzero hkind)).open hkind
            | false =>
                by_cases hclose : d.get kind = 0
                · simpa [hclose] using .zero hunquoted
                · have hother : kind ≠ .expression :=
                    fun h => hclose (by rw [h]; exact hzero)
                  have hahead := hts.of_close hzero hkind hother
                  have hbehind :=
                    (ih (hd.close kind) hahead).close hkind (hd.ne_nil hclose)
                  simpa [hclose] using hbehind

/-- A literal of an attribute. -/
theorem takes_literalLength_true {ts : List Token} (hts : Unquoted ts) :
    Takes ts (literalLength true {} ts)
      (Nested (ts.take (literalLength true {} ts))) := by
  have hcounts : Counts {} [] := fun kind => by cases kind <;> rfl
  have hcontinues := continues_literalLength hcounts
    ⟨Nat.zero_le 1, fun h => absurd h (Nat.lt_irrefl 0), fun _ => hts⟩
  refine ⟨⟨hcontinues.nests, ?_⟩, Iff.rfl, hcontinues.unquoted⟩
  rw [Quoted, hcontinues.quotes]
  trivial

/-! ### Attributes -/

theorem isPlain_of_isOperator {t : Token} {op : Operator}
    (h : t.isOperator op = true) : t.kind.isPlain = true := by
  rw [isOperator, beq_iff_eq] at h
  rw [h]
  rfl

theorem isPlain_of_repeater? {t : Token} {r : Repeater}
    (h : t.repeater? = some r) : t.kind.isPlain = true := by
  rw [Token.repeater?] at h
  cases hkind : t.kind <;> simp_all [TokenKind.isPlain]

theorem takes_one {t : Token} {ts : List Token} (hts : Unquoted (t :: ts))
    (ht : t.kind.isPlain = true) : Takes (t :: ts) 1 True :=
  takes_of_isPlain hts (by simpa using ht)

/-- The value that a reader answers is what it takes. -/
theorem takes_attributeValue {ts : List Token} {value : Option (List Token)}
    {n : Nat} (hts : Unquoted ts) (h : attributeValue ts = .ok (value, n)) :
    Takes ts n (Nested (value.getD [])) := by
  rw [attributeValue] at h
  cases hquoted : quoted ts with
  | error e =>
      rw [hquoted] at h
      cases h
  | ok m =>
      rw [hquoted] at h
      have htakes := takes_quoted hts hquoted
      have hvalue : ∀ {k : Nat} {P : Prop}, Takes ts k P →
          Takes ts k
            (Nested ((if k = 0 then none else some (ts.take k)).getD [])) := by
        intro k P hk
        refine ⟨hk.closed, ?_, hk.unquoted⟩
        by_cases hzero : k = 0 <;> simp [hzero]
      by_cases hm : m = 0
      · simp only [hm, bind, Except.bind, pure, Except.pure, if_true] at h
        cases h
        exact hvalue (takes_literalLength_true hts)
      · simp only [hm, bind, Except.bind, pure, Except.pure, if_false] at h
        cases h
        simpa [hm] using hvalue htakes

theorem takes_attributeTokens? {ts : List Token} {a : AttributeTokens} {n : Nat}
    (hts : Unquoted ts) (h : attributeTokens? ts = .ok (some (a, n))) :
    0 < n ∧ Takes ts n a.IsNested := by
  have hnil : Nested [] := rfl
  rw [attributeTokens?] at h
  cases hquoted : quoted ts with
  | error e =>
      rw [hquoted] at h
      cases h
  | ok m =>
      rw [hquoted] at h
      simp only [bind, Except.bind, pure, Except.pure] at h
      split at h
      · next hm =>
          cases h
          have htakes := takes_quoted hts hquoted
          have hnested : Nested (ts.take n) := htakes.nested.2 trivial
          exact ⟨Nat.pos_of_ne_zero hm,
            htakes.congr (iff_of_true trivial ⟨hnil, hnested⟩)⟩
      · split at h
        · cases h
        · next hname =>
            have htakes := takes_literalLength_true hts
            split at h
            · next t rest hrest =>
                split at h
                · next hequal =>
                    have hbehind : Unquoted (t :: rest) :=
                      hrest ▸ htakes.unquoted
                    have hone :=
                      takes_one hbehind (isPlain_of_isOperator hequal)
                    cases hvalue : attributeValue rest with
                    | error e =>
                        rw [hvalue] at h
                        cases h
                    | ok read =>
                        obtain ⟨value, k⟩ := read
                        rw [hvalue] at h
                        cases h
                        have hassigned :=
                          hone.trans (takes_attributeValue hone.unquoted hvalue)
                        rw [← hrest] at hassigned
                        refine ⟨by omega, ?_⟩
                        have hall := htakes.trans hassigned
                        rw [← Nat.add_assoc] at hall
                        exact hall.congr (by simp [AttributeTokens.IsNested])
                · cases h
                  exact ⟨Nat.pos_of_ne_zero hname,
                    htakes.congr (by simp [AttributeTokens.IsNested, hnil])⟩
            · cases h
              exact ⟨Nat.pos_of_ne_zero hname,
                htakes.congr (by simp [AttributeTokens.IsNested, hnil])⟩

/-- Tokens in a set of attributes, and the bracket that closes it. -/
def ClosesSet (ts : List Token) (n : Nat) (P : Prop) : Prop :=
  ∃ body close rest, ts = body ++ close :: rest ∧ n = body.length + 1 ∧
    close.kind = .bracket .attributes false ∧ Closed body ∧ (Nested body ↔ P) ∧
      Unquoted rest

theorem Takes.closesSet {ts : List Token} {n m : Nat} {P Q : Prop}
    (h : Takes ts n P) (h' : ClosesSet (ts.drop n) m Q) :
    ClosesSet ts (n + m) (P ∧ Q) := by
  obtain ⟨body, close, rest, hdrop, rfl, hclose, hclosed, hiff, hrest⟩ := h'
  have hle : n ≤ ts.length := by
    by_contra hlong
    rw [List.drop_eq_nil_of_le (by omega)] at hdrop
    simp at hdrop
  refine ⟨ts.take n ++ body, close, rest, ?_, ?_, hclose,
    h.closed.append hclosed, ?_, hrest⟩
  · rw [List.append_assoc, ← hdrop, List.take_append_drop]
  · rw [List.length_append, List.length_take, Nat.min_eq_left hle,
      Nat.add_assoc]
  · rw [nested_append hclosed, h.nested, hiff]

theorem drop_pred_eq {t : Token} {ts : List Token} {n : Nat} (hn : 0 < n) :
    ts.drop (n - 1) = (t :: ts).drop n := by
  obtain ⟨m, rfl⟩ := Nat.exists_eq_add_of_lt hn
  simp

/-- The attributes of a set take all tokens up to its closing bracket. -/
theorem closesSet_attributeSet {opener : Token} {ts : List Token}
    {attributes : List AttributeTokens} {n : Nat} (hts : Unquoted ts)
    (h : attributeSet opener ts = .ok (attributes, n)) :
    ClosesSet ts n (∀ a ∈ attributes, a.IsNested) := by
  fun_induction attributeSet opener ts generalizing attributes n with
  | case1 => cases h
  | case2 => cases h
  | case3 => cases h
  | case4 t rest a k hattribute more m hmore ih =>
      cases h
      obtain ⟨hpos, htakes⟩ := takes_attributeTokens? hts hattribute
      rw [drop_pred_eq (t := t) hpos] at ih hmore
      rw [List.forall_mem_cons]
      exact htakes.closesSet (ih htakes.unquoted hmore)
  | case5 t rest hattribute hclose =>
      cases h
      have ht := kind_of_isBracket hclose
      exact ⟨[], t, rest, rfl, rfl, ht, .nil, iff_of_true rfl (by simp),
        hts.of_bracket ht (by decide)⟩
  | case6 => cases h
  | case7 t rest hattribute hclose hblank more m hmore ih =>
      cases h
      have ht : t.kind.isPlain = true := by
        rw [isBlank] at hblank
        cases hkind : t.kind <;> simp_all [TokenKind.isPlain]
      have htakes := takes_one hts ht
      have hset := htakes.closesSet (ih htakes.unquoted hmore)
      rwa [true_and, Nat.add_comm] at hset
  | case8 => cases h

theorem takes_attributeSet {opener : Token} {ts : List Token}
    {attributes : List AttributeTokens} {n : Nat}
    (hts : Unquoted (opener :: ts))
    (hopener : opener.kind = .bracket .attributes true)
    (h : attributeSet opener ts = .ok (attributes, n)) :
    Takes (opener :: ts) (n + 1) (∀ a ∈ attributes, a.IsNested) := by
  obtain ⟨body, close, rest, rfl, rfl, hclose, hclosed, hiff, hrest⟩ :=
    closesSet_attributeSet (hts.of_bracket hopener (by decide)) h
  obtain ⟨henclosed, hnested⟩ := hclosed.enclose hopener hclose
  have htakes := Takes.of_append ⟨henclosed, hnested.trans hiff⟩ hrest
  simpa using htakes

/-- The operators of a shorthand attribute, and its value. -/
theorem takes_shorthandMark {t : Token} {ts : List Token} {op : Operator}
    (hts : Unquoted (t :: ts)) (ht : t.kind = .operator op) :
    Unquoted (ts.drop (ts.takeWhile (·.isOperator op)).length) ∧
      ∀ {n : Nat} {P : Prop},
      Takes (ts.drop (ts.takeWhile (·.isOperator op)).length) n P →
        Takes (t :: ts)
          ((ts.takeWhile (·.isOperator op)).length + 1 + n) P := by
  have hone := takes_one hts (by rw [ht]; rfl)
  have hmarks := hone.trans (takes_takeWhile (p := (·.isOperator op))
    hone.unquoted fun _ => isPlain_of_isOperator)
  rw [Nat.add_comm, true_and] at hmarks
  refine ⟨hmarks.unquoted, fun {n P} htakes => ?_⟩
  exact (hmarks.trans htakes).congr (true_and P).to_iff

theorem takes_shorthand? {jsx : Bool} {ts : List Token} {a : AttributeTokens}
    {n : Nat} (hts : Unquoted ts) (h : shorthand? jsx ts = .ok (some (a, n))) :
    0 < n ∧ Takes ts n a.IsNested := by
  have hname : ∀ name : String, Nested [Token.implied name] := fun _ => rfl
  have hnil : Nested [] := rfl
  rw [shorthand?.eq_def] at h
  split at h
  · cases h
  · next t ts =>
      split at h
      · next op hop =>
          split at h
          · cases h
          · next name hshorthand =>
              obtain ⟨hvalue, hbehind⟩ := takes_shorthandMark hts hop
              simp only [bind, Except.bind] at h
              split at h
              · cases h
              · next text htext =>
                  cases text with
                  | some m =>
                      cases h
                      split at htext
                      · obtain ⟨htakes, hnested⟩ := takes_text? hvalue htext
                        refine ⟨by omega, ?_⟩
                        have hall := hbehind htakes
                        rw [show (ts.takeWhile (·.isOperator op)).length + 1 +
                          (m + 2) = (ts.takeWhile (·.isOperator op)).length +
                          m + 3 by omega] at hall
                        exact hall.congr
                          (iff_of_true trivial ⟨hname name, hnested⟩)
                      · cases htext
                  | none =>
                      dsimp only at h
                      have htakes := takes_literalLength_false hvalue
                      have hnested := htakes.nested.2 trivial
                      split at h
                      · next hzero =>
                          cases h
                          rw [hzero] at htakes
                          exact ⟨Nat.succ_pos _, (hbehind htakes).congr
                            (iff_of_true trivial ⟨hname name, hnil⟩)⟩
                      · cases h
                        have hall := hbehind htakes
                        rw [Nat.add_right_comm] at hall
                        exact ⟨Nat.succ_pos _, hall.congr
                          (iff_of_true trivial ⟨hname name, hnested⟩)⟩
      · cases h

end Statement.Parser

end Scaffold

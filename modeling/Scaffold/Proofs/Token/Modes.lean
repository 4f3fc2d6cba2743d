import Scaffold.Proofs.Token.Enclosed
/-!
The modes of the lexer, as its tokens show them.  Between two quotes there is
neither a bracket nor another quote, and in the braces of a text there is no
quote and no bracket but a closing one: whatever is nested in a text is part of
its literals.  For that reason the tokens of a text do not say which closing
brace ends it.  Main statement: `orderly_of_tokenize`.
-/
namespace Scaffold

def TokenKind.isPlain : TokenKind → Bool
  | .bracket _ _ | .quote _ => false
  | _ => true

namespace Lexer

/-- What the lexer is in: a quoted value, a text, or neither. -/
inductive Mode
  | plain
  | quoted (single : Bool)
  | text

namespace Mode

def Fits : Mode → Context → Prop
  | plain, ctx => ctx.quote = none ∧ ctx.expression = 0
  | quoted single, ctx =>
    ctx.quote = some (Enclosure.quotes single).mark ∧ ctx.expression = 0
  | text, ctx => ctx.quote = none ∧ 0 < ctx.expression

/-- A token of a kind may come in a mode, and the mode behind it passes.
Nothing is said of what comes behind a closing brace where no text is open. -/
def Leads (P : Mode → Prop) : Mode → TokenKind → Prop
  | plain, .quote single => P (quoted single)
  | plain, .bracket .expression true => P text
  | plain, .bracket .expression false => True
  | plain, _ => P plain
  | quoted single, .quote other => other = single ∧ P plain
  | quoted _, .bracket _ _ => False
  | quoted single, _ => P (quoted single)
  | text, .quote _ => False
  | text, .bracket .expression false => P plain ∨ P text
  | text, .bracket _ _ => False
  | text, _ => P text

variable {P Q : Mode → Prop}

theorem Leads.imp (h : ∀ m, P m → Q m) {m : Mode} {kind : TokenKind}
    (hleads : m.Leads P kind) : m.Leads Q kind := by
  fun_cases Leads P m kind with
  | case9 => exact Or.imp (h _) (h _) hleads
  | _ => simp_all [Leads]

theorem leads_of_isPlain {kind : TokenKind} (hkind : kind.isPlain = true)
    (m : Mode) : m.Leads P kind ↔ P m := by
  cases kind with
  | bracket | quote => cases hkind
  | _ => cases m <;> rfl

end Mode

/-- Tokens that can come one after the other, from a mode on. -/
def Orderly (m : Mode) : List Token → Prop
  | [] => True
  | t :: ts => m.Leads (fun behind => Orderly behind ts) t.kind

/-- Tokens that come while no quote is open. -/
def Unquoted (ts : List Token) : Prop := Orderly .plain ts ∨ Orderly .text ts

section Orderly

variable {t : Token} {ts : List Token}

theorem Orderly.of_isPlain {m : Mode} (h : Orderly m (t :: ts))
    (ht : t.kind.isPlain = true) : Orderly m ts :=
  (Mode.leads_of_isPlain ht m).1 h

theorem Unquoted.of_isPlain (h : Unquoted (t :: ts))
    (ht : t.kind.isPlain = true) : Unquoted ts :=
  h.imp (·.of_isPlain ht) (·.of_isPlain ht)

/-- Behind a bracket of a group or of attributes no text is open. -/
theorem Unquoted.of_bracket (h : Unquoted (t :: ts)) {kind : BracketKind}
    {opens : Bool} (ht : t.kind = .bracket kind opens)
    (hkind : kind ≠ .expression) : Unquoted ts := by
  rcases h with h | h <;> rw [Orderly, ht] at h
  · cases kind with
    | group | attributes => exact .inl h
    | expression => exact absurd rfl hkind
  · cases kind with
    | group | attributes => exact h.elim
    | expression => exact absurd rfl hkind

theorem Unquoted.text (h : Unquoted (t :: ts))
    (ht : t.kind = .bracket .expression true) : Orderly .text ts := by
  rcases h with h | h <;> rw [Orderly, ht] at h
  · exact h
  · exact h.elim

theorem Unquoted.quoted (h : Unquoted (t :: ts)) {single : Bool}
    (ht : t.kind = .quote single) : Orderly (.quoted single) ts := by
  rcases h with h | h <;> rw [Orderly, ht] at h
  · exact h
  · exact h.elim

/-- A text goes on, or ends with a closing brace. -/
theorem Orderly.of_text (h : Orderly .text (t :: ts)) :
    (t.kind.isPlain = true ∧ Orderly .text ts) ∨
      (t.kind = .bracket .expression false ∧ Unquoted ts) := by
  rw [Orderly] at h
  cases hkind : t.kind with
  | bracket kind opens =>
      rw [hkind] at h
      cases kind <;> cases opens
      case expression.false => exact .inr ⟨rfl, h⟩
      all_goals exact h.elim
  | quote single =>
      rw [hkind] at h
      exact h.elim
  | _ =>
      rw [hkind] at h
      exact .inl ⟨rfl, h⟩

/-- A quoted value goes on, or ends with its closing quote. -/
theorem Orderly.of_quoted {single : Bool}
    (h : Orderly (.quoted single) (t :: ts)) :
    (t.kind.isPlain = true ∧ Orderly (.quoted single) ts) ∨
      (t.kind = .quote single ∧ Unquoted ts) := by
  rw [Orderly] at h
  cases hkind : t.kind with
  | bracket kind opens =>
      rw [hkind] at h
      exact h.elim
  | quote other =>
      rw [hkind] at h
      obtain ⟨rfl, hrest⟩ := h
      exact .inr ⟨rfl, .inl hrest⟩
  | _ =>
      rw [hkind] at h
      exact .inl ⟨rfl, h⟩

end Orderly

/-! ### Literals -/

/-- A literal does not come out of the text that it is in, and into none where
there is none. -/
theorem depth_literalRun {outer : Int} {ctx : Context}
    (hdepth : outer ≤ ctx.expression) (before : Option Char) (cs : List Char) :
    outer ≤ (literalRun outer ctx before cs).depth ∧
      (outer = 0 → (literalRun outer ctx before cs).depth =
        ctx.expression) := by
  fun_induction literalRun outer ctx before cs with
  | case6 ctx =>
      have hinner : outer ≤ ctx.expression + 1 := by omega
      simp_all [LiteralRun.cons]
  | _ => simp_all +zetaDelta [LiteralRun.cons]

/-- What ends a literal before it begins. -/
theorem head_of_length_literalRun {outer : Int} {ctx : Context}
    {before : Option Char} {c : Char} {cs : List Char}
    (h : (literalRun outer ctx before (c :: cs)).length = 0) :
    ctx.quote = some c ∨ c = '$' ∨ actsAsOperator ctx c = true ∨
      (outer ≠ 0 ∧ c = '}') ∨ (outer = 0 ∧ endsLiteral ctx c = true) := by
  rw [literalRun.eq_def] at h
  split at h
  · next heq => cases heq
  · cases h
  · cases h
  · next heq =>
      cases heq
      grind [LiteralRun.cons]

theorem head_of_literal? {ctx : Context} {before : Option Char} {c : Char}
    {cs : List Char} (h : literal? ctx before (c :: cs) = none) :
    (literalRun ctx.expression ctx before (c :: cs)).length = 0 := by
  rw [literal?] at h
  split at h
  · next hlength => exact hlength
  · cases h

/-- In quotes a literal goes on up to the closing one, or up to a `$`. -/
theorem head_of_literal?_quoted {single : Bool} {ctx : Context}
    (hctx : (Mode.quoted single).Fits ctx) {before : Option Char} {c : Char}
    {cs : List Char} (h : literal? ctx before (c :: cs) = none) :
    c = (Enclosure.quotes single).mark ∨ c = '$' := by
  obtain ⟨hquote, hexpression⟩ := hctx
  have hoperator : actsAsOperator ctx c = false := by
    rw [actsAsOperator]
    split <;> simp [hquote]
  have hends : endsLiteral ctx c = false := by simp [endsLiteral, hquote]
  rcases head_of_length_literalRun (head_of_literal? h)
    with hc | hc | hc | hc | hc
  · exact .inl (Option.some.inj (hc.symm.trans hquote))
  · exact .inr hc
  · simp [hoperator] at hc
  · exact absurd hexpression hc.1
  · simp [hends] at hc

/-- In a text it goes on up to a closing brace, or up to a `$`. -/
theorem head_of_literal?_text {ctx : Context} (hctx : Mode.text.Fits ctx)
    {before : Option Char} {c : Char} {cs : List Char}
    (h : literal? ctx before (c :: cs) = none) : c = '}' ∨ c = '$' := by
  obtain ⟨hquote, hexpression⟩ := hctx
  have hinside : ctx.inExpression = true := by
    simpa [Context.inExpression] using hexpression.ne'
  have hoperator : actsAsOperator ctx c = false := by
    rw [actsAsOperator]
    split <;> simp [hinside]
  rcases head_of_length_literalRun (head_of_literal? h)
    with hc | hc | hc | hc | hc
  · simp [hquote] at hc
  · exact .inr hc
  · simp [hoperator] at hc
  · exact .inl hc.2
  · exact absurd hc.1 hexpression.ne'

/-! ### Steps -/

theorem mark?_sign (ctx : Context) (cs : List Char) :
    mark? ctx ('$' :: cs) = none := rfl

theorem leads_mark?_plain {ctx : Context} (hctx : Mode.plain.Fits ctx)
    {cs : List Char} {l : Lexeme} (h : mark? ctx cs = some l) :
    Mode.plain.Leads (·.Fits l.context) l.kind := by
  obtain ⟨hquote, hexpression⟩ := hctx
  rw [mark?.eq_def] at h
  split at h
  · next c cs =>
      split at h
      · cases h
        exact ⟨hquote, hexpression⟩
      · split at h
        · next hmark =>
            cases h
            rw [isQuoteMark, Bool.or_eq_true, beq_iff_eq, beq_iff_eq] at hmark
            refine ⟨?_, hexpression⟩
            rcases hmark with rfl | rfl <;>
              simp [Context.afterQuote, hquote, Enclosure.mark]
        · split at h
          · next kind opens hbracket =>
              cases h
              cases kind <;> cases opens <;>
                simp [Mode.Leads, Mode.Fits, Context.afterBracket, hquote,
                  hexpression]
          · cases h
  · cases h

theorem leads_mark?_quoted {single : Bool} {ctx : Context}
    (hctx : (Mode.quoted single).Fits ctx) {before : Option Char}
    {cs : List Char} {l : Lexeme} (hliteral : literal? ctx before cs = none)
    (h : mark? ctx cs = some l) :
    (Mode.quoted single).Leads (·.Fits l.context) l.kind := by
  cases cs with
  | nil => cases h
  | cons c cs =>
      rcases head_of_literal?_quoted hctx hliteral with rfl | rfl
      · have hmark : mark? ctx ((Enclosure.quotes single).mark :: cs) =
            some { kind := .quote single, length := 1, length_pos := Nat.one_pos
                   context :=
                     ctx.afterQuote (Enclosure.quotes single).mark } := by
          cases single <;> rfl
        rw [hmark] at h
        cases h
        exact ⟨rfl, by simp [Context.afterQuote, hctx.1], hctx.2⟩
      · rw [mark?_sign] at h
        cases h

theorem leads_mark?_text {ctx : Context} (hctx : Mode.text.Fits ctx)
    {before : Option Char} {cs : List Char} {l : Lexeme}
    (hliteral : literal? ctx before cs = none) (h : mark? ctx cs = some l) :
    Mode.text.Leads (·.Fits l.context) l.kind := by
  cases cs with
  | nil => cases h
  | cons c cs =>
      rcases head_of_literal?_text hctx hliteral with rfl | rfl
      · have hmark : mark? ctx ('}' :: cs) =
            some
              { kind := .bracket .expression false, length := 1
                length_pos := Nat.one_pos
                context := ctx.afterBracket .expression false } := rfl
        obtain ⟨hquote, hexpression⟩ := hctx
        have hafter : (ctx.afterBracket .expression false).expression =
            ctx.expression - 1 := rfl
        rw [hmark] at h
        cases h
        by_cases hlast : ctx.expression = 1
        · exact .inl ⟨hquote, by rw [hafter]; omega⟩
        · exact .inr ⟨hquote, by rw [hafter]; omega⟩
      · rw [mark?_sign] at h
        cases h

/-- The context behind a literal is of the same mode. -/
theorem fits_literal? {m : Mode} {ctx : Context} (hctx : m.Fits ctx)
    {before : Option Char} {cs : List Char} {l : Lexeme}
    (h : literal? ctx before cs = some l) :
    l.kind.isPlain = true ∧ m.Fits l.context := by
  obtain ⟨hdepth, houtside⟩ :=
    depth_literalRun (Int.le_refl ctx.expression) before cs
  rw [literal?] at h
  split at h
  · cases h
  · cases h
    refine ⟨rfl, ?_⟩
    cases m with
    | plain => exact ⟨hctx.1, (houtside hctx.2).trans hctx.2⟩
    | quoted single => exact ⟨hctx.1, (houtside hctx.2).trans hctx.2⟩
    | text => exact ⟨hctx.1, Int.lt_of_lt_of_le hctx.2 hdepth⟩

/-- A rule that leaves the context as it is, and answers with neither a bracket
nor a quote. -/
def Keeps (ctx : Context) (l : Lexeme) : Prop :=
  l.kind.isPlain = true ∧ l.context = ctx

theorem keeps_field? {ctx : Context} {offset : Nat} {cs : List Char}
    {l : Lexeme} (h : field? ctx offset cs = .ok (some l)) : Keeps ctx l := by
  rw [field?.eq_def] at h
  split at h
  · split at h
    · split at h
      · cases h
      · split at h
        · cases h
          exact ⟨rfl, rfl⟩
        · cases h
    · cases h
  · cases h

theorem keeps_textPlaceholder? {ctx : Context} {cs : List Char} {l : Lexeme}
    (h : textPlaceholder? ctx cs = some l) : Keeps ctx l := by
  rw [textPlaceholder?.eq_def] at h
  split at h
  · cases h
    exact ⟨rfl, rfl⟩
  · cases h

theorem keeps_number? {ctx : Context} {cs : List Char} {l : Lexeme}
    (h : number? ctx cs = some l) : Keeps ctx l := by
  rw [number?.eq_def] at h
  split at h
  · dsimp only at h
    split at h <;> cases h <;> exact ⟨rfl, rfl⟩
  · cases h

theorem keeps_repeater? {ctx : Context} {cs : List Char} {l : Lexeme}
    (h : repeater? ctx cs = some l) : Keeps ctx l := by
  rw [repeater?.eq_def] at h
  split at h
  · cases h
    exact ⟨rfl, rfl⟩
  · cases h

theorem keeps_blank? {ctx : Context} {cs : List Char} {l : Lexeme}
    (h : blank? ctx cs = some l) : Keeps ctx l := by
  rw [blank?.eq_def] at h
  split at h
  · split at h
    · cases h
      exact ⟨rfl, rfl⟩
    · cases h
  · cases h

/-- One step of the lexer goes from mode to mode. -/
theorem leads_lexeme? {m : Mode} {ctx : Context} (hctx : m.Fits ctx)
    {before : Option Char} {offset : Nat} {cs : List Char} {l : Lexeme}
    (h : lexeme? ctx before offset cs = .ok (some l)) :
    m.Leads (·.Fits l.context) l.kind := by
  have hkeeps : Keeps ctx l → m.Leads (·.Fits l.context) l.kind := by
    rintro ⟨hplain, hsame⟩
    rw [Mode.leads_of_isPlain hplain, hsame]
    exact hctx
  rw [lexeme?] at h
  split at h
  · cases h
  · next hfield =>
      cases h
      exact hkeeps (keeps_field? hfield)
  · have hrule := Except.ok.inj h
    simp only [Option.orElse_eq_orElse, Option.orElse_eq_or,
      Option.or_eq_some_iff] at hrule
    rcases hrule with h | ⟨-, h | ⟨-, h | ⟨-, h | ⟨-, h | ⟨hliteral, h⟩⟩⟩⟩⟩
    · exact hkeeps (keeps_textPlaceholder? h)
    · exact hkeeps (keeps_number? h)
    · exact hkeeps (keeps_repeater? h)
    · exact hkeeps (keeps_blank? h)
    · obtain ⟨hplain, hfits⟩ := fits_literal? hctx h
      rw [Mode.leads_of_isPlain hplain]
      exact hfits
    · cases m with
      | plain => exact leads_mark?_plain hctx h
      | quoted single => exact leads_mark?_quoted hctx hliteral h
      | text => exact leads_mark?_text hctx hliteral h

/-- All tokens of a run come one after the other, from its mode on. -/
theorem orderly_of_tokensFrom {m : Mode} {ctx : Context} (hctx : m.Fits ctx)
    {before : Option Char} {offset : Nat} {cs : List Char} {tokens : List Token}
    (h : tokensFrom ctx before offset cs = .ok tokens) : Orderly m tokens := by
  fun_induction tokensFrom ctx before offset cs generalizing m tokens with
  | case1 =>
      cases h
      trivial
  | case2 => cases h
  | case3 => cases h
  | case4 => cases h
  | case5 ctx before offset cs _ l hlexeme more hmore ih =>
      cases h
      exact (leads_lexeme? hctx hlexeme).imp fun behind hbehind =>
        ih hbehind hmore

end Lexer

/-- The tokens of a source can come one after the other, from no text and no
quotes on. -/
theorem orderly_of_tokenize {source : String} {tokens : List Token}
    (h : tokenize source = .ok tokens) : Lexer.Orderly .plain tokens :=
  Lexer.orderly_of_tokensFrom (m := .plain) ⟨rfl, rfl⟩ h

end Scaffold

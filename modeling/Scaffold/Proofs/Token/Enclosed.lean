import Scaffold.Node.Unrolling
import Scaffold.Proofs.Token.Counts
import Scaffold.Proofs.Token.TextBody
/-!
What is enclosed in braces or quotes, as the lexer reads it.  Escaped characters
are one literal, whatever they are.  Characters that need no escape are one
literal as well, behind the blanks and repeaters at the head of the text, which
come back as `reread` says.  Main statements: `Enclosure.speaks_escape`,
`Enclosure.speaks_reread`.
-/
namespace Scaffold

namespace Token

/-- A token that stands for the same text wherever it is: a literal, a blank or
a repeater. -/
def isWord (t : Token) : Bool :=
  match t.kind with
  | .literal _ | .blank _ | .repeater _ => true
  | _ => false

theorem tokenText_of_isWord {t : Token} (h : t.isWord = true)
    (s : Unrolling.Settings) (chain : Unrolling.Chain) :
    Unrolling.tokenText s chain t = Unrolling.tokenText {} [] t := by
  rcases t with ⟨kind, _, _⟩
  cases kind <;> first | rfl | cases h

end Token

namespace Lexer

/-- A text with a backslash in front of each character. -/
def escape : List Char → List Char
  | [] => []
  | c :: cs => '\\' :: c :: escape cs

/-- Whether all braces are closed, and none too early, in what is left of a text
some braces deep. -/
def balances : Nat → List Char → Bool
  | depth, [] => depth == 0
  | depth, '{' :: cs => balances (depth + 1) cs
  | 0, '}' :: _ => false
  | depth + 1, '}' :: cs => balances depth cs
  | depth, _ :: cs => balances depth cs

theorem balances_cons_of_isPlainChar {c : Char} (hc : isPlainChar c = true)
    (depth : Nat) (cs : List Char) :
    balances depth (c :: cs) = balances depth cs := by
  obtain ⟨-, -, hopen, hclose⟩ := isPlainChar_iff.1 hc
  rw [balances.eq_5]
  · exact hopen
  · exact fun _ => hclose
  · exact fun _ _ => hclose

/-- What a text stands in: the braces behind a name, or the quotes of an
attribute's value. -/
inductive Enclosure
  | braces
  | quotes (single : Bool)

namespace Enclosure

/-- The character that ends the text. -/
def mark : Enclosure → Char
  | braces => '}'
  | quotes single => if single then '\'' else '"'

/-- The token that ends the text. -/
def closing : Enclosure → TokenKind
  | braces => .bracket .expression false
  | quotes single => .quote single

/-- The context behind the text. -/
def outside : Enclosure → Context
  | braces => {}
  | quotes _ => { attributes := 1 }

/-- The context of the text. -/
def inside : Enclosure → Context
  | braces => within 0
  | quotes single => { attributes := 1, quote := some (quotes single).mark }

/-- Whether the enclosure of a text ends behind it: within braces its own ones
balance, and within quotes it has none of their kind. -/
def EndsBehind : Enclosure → List Char → Prop
  | braces, cs => balances 0 cs = true
  | quotes single, cs => (quotes single).mark ∉ cs

/-- A text that can stand in an enclosure without escapes. -/
structure Admits (e : Enclosure) (cs : List Char) : Prop where
  sign : '$' ∉ cs
  escape : '\\' ∉ cs
  ends : e.EndsBehind cs

/-- The literal ahead takes all characters of an enclosed text, and stands for
the given ones. -/
def Holds (e : Enclosure) (cs text : List Char) : Prop :=
  ∀ before rest, literalRun e.inside.expression e.inside before
    (cs ++ e.mark :: rest) = ⟨text, cs.length, e.inside.expression⟩

/-- Wherever the characters are enclosed, they are cut into words that together
are the text. -/
def Speaks (e : Enclosure) (cs : List Char) (text : String) : Prop :=
  ∀ (before : Option Char) (offset : Nat) (rest : List Char)
    (more : List Token),
    tokensFrom e.outside (some e.mark) (offset + cs.length + 1) rest =
      .ok more →
    ∃ tokens, tokensFrom e.inside before offset (cs ++ e.mark :: rest) =
        .ok (tokens ++
          ⟨e.closing, offset + cs.length, offset + cs.length + 1⟩ :: more) ∧
      (∀ t ∈ tokens, t.isWord = true) ∧ Unrolling.nameText {} [] tokens = text

theorem literalRun_mark (e : Enclosure) (before : Option Char)
    (rest : List Char) :
    literalRun e.inside.expression e.inside before (e.mark :: rest) =
      ⟨[], 0, e.inside.expression⟩ := by
  cases e with
  | braces => exact literalRun_closing 0 before rest
  | quotes single =>
      cases single <;> simp [inside, mark, literalRun, isFraction]

theorem holds_nil (e : Enclosure) : e.Holds [] [] := e.literalRun_mark

/-- A backslash lets every character through, also the one that would end the
text. -/
theorem holds_escape (e : Enclosure) (text : List Char) :
    e.Holds (escape text) text := by
  induction text with
  | nil => exact e.holds_nil
  | cons c text ih =>
      intro before rest
      rw [escape, List.cons_append, List.cons_append, literalRun.eq_3, ih]
      rfl

theorem literalRun_balanced {depth : Nat} {cs : List Char} (hsign : '$' ∉ cs)
    (hescape : '\\' ∉ cs) (hbalances : balances depth cs = true)
    (before : Option Char) (rest : List Char) :
    literalRun 1 (within depth) before (cs ++ '}' :: rest) =
      ⟨cs, cs.length, 1⟩ := by
  induction cs generalizing depth before with
  | nil =>
      obtain rfl : depth = 0 := by simpa [balances] using hbalances
      exact literalRun_closing 0 before rest
  | cons c cs ih =>
      rw [List.mem_cons, not_or] at hsign hescape
      have hbehind : ∀ {inner : Nat}, balances inner cs = true →
          (literalRun 1 (within inner) (some c) (cs ++ '}' :: rest)).cons c =
            ⟨c :: cs, (c :: cs).length, 1⟩ := by
        intro inner hinner
        rw [ih hsign.2 hescape.2 hinner]
        rfl
      by_cases hopen : c = '{'
      · subst hopen
        rw [← hbehind hbalances]
        exact literalRun_opened 0 depth before (cs ++ '}' :: rest)
      by_cases hclose : c = '}'
      · subst hclose
        cases depth with
        | zero => cases hbalances
        | succ depth =>
            rw [← hbehind hbalances]
            exact literalRun_closed 0 depth before
              (cs ++ '}' :: rest) (Nat.zero_le depth)
      · have hplain : isPlainChar c = true :=
          isPlainChar_iff.2 ⟨Ne.symm hsign.1, Ne.symm hescape.1, hopen, hclose⟩
        rw [balances_cons_of_isPlainChar hplain] at hbalances
        rw [← hbehind hbalances]
        exact literalRun_plain 0 depth before (cs ++ '}' :: rest) hplain

theorem literalRun_quoted {single : Bool} {cs : List Char} (hsign : '$' ∉ cs)
    (hescape : '\\' ∉ cs) (hquote : (quotes single).mark ∉ cs)
    (before : Option Char) (rest : List Char) :
    literalRun 0 (quotes single).inside before
      (cs ++ (quotes single).mark :: rest) =
      ⟨cs, cs.length, 0⟩ := by
  induction cs generalizing before with
  | nil => exact (quotes single).literalRun_mark before rest
  | cons c cs ih =>
      rw [List.mem_cons, not_or] at hsign hescape hquote
      have hopen : (quotes single).inside.quote = some (quotes single).mark :=
        rfl
      have hoperator : actsAsOperator (quotes single).inside c = false := by
        rw [actsAsOperator]
        split <;> simp [hopen]
      have hstep : literalRun 0 (quotes single).inside before
          (c :: (cs ++ (quotes single).mark :: rest)) =
            (literalRun 0 (quotes single).inside (some c)
              (cs ++ (quotes single).mark :: rest)).cons c := by
        rw [literalRun.eq_def]
        simp [isFraction, endsLiteral, hopen, hoperator, Ne.symm hsign.1,
          Ne.symm hescape.1, hquote.1]
      rw [List.cons_append, hstep, ih hsign.2 hescape.2 hquote.2]
      rfl

theorem Admits.holds {e : Enclosure} {cs : List Char} (h : e.Admits cs) :
    e.Holds cs cs := by
  intro before rest
  cases e with
  | braces => exact literalRun_balanced h.sign h.escape h.ends before rest
  | quotes single => exact literalRun_quoted h.sign h.escape h.ends before rest

/-- Plain characters at the head of a text do not matter to its braces. -/
theorem balances_append_of_isPlainChar {run : List Char}
    (hrun : ∀ c ∈ run, isPlainChar c = true) (depth : Nat) (cs : List Char) :
    balances depth (run ++ cs) = balances depth cs := by
  induction run with
  | nil => rfl
  | cons c run ih =>
      obtain ⟨hc, hrun⟩ := List.forall_mem_cons.1 hrun
      rw [List.cons_append, balances_cons_of_isPlainChar hc, ih hrun]

theorem Admits.of_append {e : Enclosure} {run cs : List Char}
    (h : e.Admits (run ++ cs)) (hrun : ∀ c ∈ run, isPlainChar c = true) :
    e.Admits cs := by
  obtain ⟨hsign, hescape, hends⟩ := h
  rw [List.mem_append, not_or] at hsign hescape
  refine ⟨hsign.2, hescape.2, ?_⟩
  cases e with
  | braces => rwa [EndsBehind, balances_append_of_isPlainChar hrun] at hends
  | quotes single =>
      rw [EndsBehind, List.mem_append, not_or] at hends
      exact hends.2

/-! ### The tokens of an enclosed text -/

theorem lexeme?_mark (e : Enclosure) (before : Option Char) (offset : Nat)
    (rest : List Char) :
    lexeme? e.inside before offset (e.mark :: rest) =
      .ok (some { kind := e.closing, length := 1, context := e.outside,
                  length_pos := Nat.one_pos }) := by
  cases e with
  | braces => exact lexeme?_closing 0 before offset rest
  | quotes single =>
      have hsign : (quotes single).mark ≠ '$' := by cases single <;> decide
      have hnone : literal? (quotes single).inside before
          ((quotes single).mark :: rest) =
          none := by
        have hrun : literalRun (quotes single).inside.expression
            (quotes single).inside before
            ((quotes single).mark :: rest) = ⟨[], 0, 0⟩ :=
              literalRun_mark _ before rest
        simp only [literal?, hrun, ↓reduceDIte]
      rw [lexeme?_of_ne_sign hsign, hnone]
      cases single <;> rfl

theorem speaks_nil (e : Enclosure) : e.Speaks [] "" := by
  intro before offset rest more hmore
  refine ⟨[], ?_, by simp, rfl⟩
  exact tokensFrom_of_lexeme? (by simp)
    (e.lexeme?_mark before offset rest) hmore

/-- In front of the rest of an enclosed text, the characters of a chunk are
taken as one token. -/
def Takes (e : Enclosure) (chunk behind : List Char) (kind : TokenKind) :
    Prop :=
  ∀ before offset rest, ∃ l,
    lexeme? e.inside before offset (chunk ++ (behind ++ e.mark :: rest)) =
      .ok (some l) ∧
      l.kind = kind ∧ l.length = chunk.length ∧ l.context = e.inside

/-- A word in front of an enclosed text. -/
theorem Speaks.append {e : Enclosure} {chunk cs : List Char} {word : TokenKind}
    {text : String} (h : e.Speaks cs text)
    (hword : Token.isWord ⟨word, 0, 0⟩ = true)
    (htakes : e.Takes chunk cs word) :
    e.Speaks (chunk ++ cs)
      (Unrolling.tokenText {} [] ⟨word, 0, 0⟩ ++ text) := by
  intro before offset rest more hmore
  obtain ⟨l, hl, rfl, hlength, hcontext⟩ := htakes before offset rest
  have hend : offset + (chunk ++ cs).length =
      offset + l.length + cs.length := by
    rw [hlength, List.length_append, Nat.add_assoc]
  rw [hend] at hmore ⊢
  obtain ⟨tokens, htokens, hwords, htext⟩ := h
    ((chunk ++ (cs ++ e.mark :: rest)).take l.length).getLast?
      (offset + l.length) rest more hmore
  refine ⟨⟨l.kind, offset, offset + l.length⟩ :: tokens, ?_, ?_, ?_⟩
  · have hdrop : (chunk ++ (cs ++ e.mark :: rest)).drop l.length =
        cs ++ e.mark :: rest := by
      rw [hlength, List.drop_left]
    have hsome : chunk ++ (cs ++ e.mark :: rest) ≠ [] := by simp
    rw [← hcontext, ← hdrop] at htokens
    rw [List.append_assoc]
    exact tokensFrom_of_lexeme? hsome hl
      (by rw [hdrop] at htokens ⊢; exact htokens)
  · exact List.forall_mem_cons.2 ⟨hword, hwords⟩
  · rw [Unrolling.nameText, List.map_cons, String.join_cons,
      ← Unrolling.nameText, htext]
    rfl

theorem literal?_of_literalRun {ctx : Context} {before : Option Char}
    {cs text : List Char} {n : Nat} {depth : Int}
    (hrun : literalRun ctx.expression ctx before cs = ⟨text, n + 1, depth⟩) :
    literal? ctx before cs = some
      { kind := .literal (String.ofList text), length := n + 1,
        context := { ctx with expression := depth }, length_pos :=
          Nat.succ_pos n } := by
  simp only [literal?, hrun, Nat.succ_ne_zero, ↓reduceDIte]

/-- A text that begins with neither a blank nor a repeater is one literal. -/
theorem Holds.takes {e : Enclosure} {c : Char} {cs text : List Char}
    (h : e.Holds (c :: cs) text) (hsign : c ≠ '$') (hstar : c ≠ '*')
    (hspace : isSpace c = false) :
    e.Takes (c :: cs) [] (.literal (String.ofList text)) := by
  intro before offset rest
  have hliteral := literal?_of_literalRun (h before rest)
  refine ⟨⟨.literal (String.ofList text), cs.length + 1, e.inside,
    Nat.succ_pos _⟩, ?_, rfl, rfl, rfl⟩
  rw [List.cons_append] at hliteral
  rw [List.cons_append, List.nil_append, lexeme?_of_ne_sign hsign, hliteral]
  simp [repeater?, blank?, hstar, hspace]

/-- Whatever is escaped stands for itself. -/
theorem speaks_escape (e : Enclosure) (text : List Char) :
    e.Speaks (escape text) (String.ofList text) := by
  cases text with
  | nil => exact e.speaks_nil
  | cons c cs =>
      have htakes :=
        (e.holds_escape (c :: cs)).takes (by decide) (by decide) (by decide)
      have hspeaks := e.speaks_nil.append rfl htakes
      rwa [List.append_nil, String.append_empty] at hspeaks

theorem takeWhile_append_cons {test : Char → Bool} {stop : Char}
    (hstop : test stop = false) (cs rest : List Char) :
    (cs ++ stop :: rest).takeWhile test = cs.takeWhile test := by
  induction cs with
  | nil => simp [hstop]
  | cons c cs ih => simp [List.takeWhile_cons, ih]

theorem mark_stops (e : Enclosure) :
    isSpace e.mark = false ∧ e.mark.isDigit = false := by
  cases e with
  | braces => decide
  | quotes single => cases single <;> decide

theorem takes_blank (e : Enclosure) {c : Char} (hspace : isSpace c = true)
    (cs : List Char) :
    e.Takes (c :: cs.takeWhile isSpace) (cs.dropWhile isSpace)
      (.blank (String.ofList (c :: cs.takeWhile isSpace))) := by
  intro before offset rest
  have hsign : c ≠ '$' := (isPlainChar_iff.1 (isPlainChar_of_isSpace hspace)).1
  have hstar : c ≠ '*' := by
    rintro rfl
    cases hspace
  have hrun := takeWhile_append_cons e.mark_stops.1 cs rest
  have hsource : c :: cs.takeWhile isSpace ++
      (cs.dropWhile isSpace ++ e.mark :: rest) =
      c :: (cs ++ e.mark :: rest) := by
    rw [List.cons_append, ← List.append_assoc, List.takeWhile_append_dropWhile]
  refine ⟨⟨_, (c :: cs.takeWhile isSpace).length, e.inside, Nat.succ_pos _⟩, ?_,
    rfl, rfl, rfl⟩
  rw [hsource, lexeme?_of_ne_sign hsign]
  simp [repeater?, blank?, hstar, hspace, hrun]

theorem takes_repeater (e : Enclosure) (cs : List Char) :
    ∃ r, e.Takes ('*' :: cs.takeWhile Char.isDigit) (cs.dropWhile Char.isDigit)
      (.repeater r) ∧
      Unrolling.tokenText {} [] ⟨.repeater r, 0, 0⟩ =
        String.ofList ('*' :: rewritten (cs.takeWhile Char.isDigit)) := by
  refine ⟨if (cs.takeWhile Char.isDigit).isEmpty then ⟨1, true⟩
    else ⟨Numeral.ofDigits (cs.takeWhile Char.isDigit), false⟩, ?_, ?_⟩
  · intro before offset rest
    have hrun := takeWhile_append_cons e.mark_stops.2 cs rest
    have hsource : '*' :: cs.takeWhile Char.isDigit ++
        (cs.dropWhile Char.isDigit ++ e.mark :: rest) =
          '*' :: (cs ++ e.mark :: rest) := by
      rw [List.cons_append, ← List.append_assoc,
        List.takeWhile_append_dropWhile]
    refine ⟨⟨_, (cs.takeWhile Char.isDigit).length + 1, e.inside,
      Nat.succ_pos _⟩, ?_, rfl, rfl, rfl⟩
    rw [hsource, lexeme?_of_ne_sign (by decide)]
    simp only [repeater?, hrun, Option.orElse_eq_orElse, Option.orElse_eq_or,
      Option.some_or]
  · rw [rewritten]
    split
    · rfl
    · rw [← List.singleton_append, String.ofList_append]
      rfl

/-- A text without escapes is read back with the counts at its head written
anew. -/
theorem speaks_reread {e : Enclosure} {cs : List Char} (h : e.Admits cs) :
    e.Speaks cs (String.ofList (reread cs)) := by
  induction hlength : cs.length using Nat.strongRecOn generalizing cs with
  | ind length ih =>
    subst hlength
    cases cs with
    | nil =>
        rw [reread]
        exact e.speaks_nil
    | cons c cs =>
        have hshorter : ∀ test : Char → Bool,
            (cs.dropWhile test).length < (c :: cs).length := fun test =>
          Nat.lt_succ_of_le (List.dropWhile_suffix test).length_le
        by_cases hspace : isSpace c = true
        · have hrun : ∀ d ∈ c :: cs.takeWhile isSpace, isSpace d = true :=
            List.forall_mem_cons.2 ⟨hspace, fun d hd =>
              List.mem_takeWhile_imp hd⟩
          have hsplit : c :: cs = c :: cs.takeWhile isSpace ++
              cs.dropWhile isSpace := by
            rw [List.cons_append, List.takeWhile_append_dropWhile]
          have hadmits : e.Admits (cs.dropWhile isSpace) :=
            (hsplit ▸ h).of_append fun d hd =>
              isPlainChar_of_isSpace (hrun d hd)
          have hspeaks := (ih _ (hshorter isSpace) hadmits rfl).append rfl
            (e.takes_blank hspace cs)
          rw [hsplit, reread_append_of_isSpace hrun, String.ofList_append]
          exact hspeaks
        by_cases hstar : c = '*'
        · subst hstar
          have hsplit : '*' :: cs =
              '*' :: cs.takeWhile Char.isDigit ++
                cs.dropWhile Char.isDigit := by
            rw [List.cons_append, List.takeWhile_append_dropWhile]
          have hplain : ∀ d ∈ '*' :: cs.takeWhile Char.isDigit,
              isPlainChar d = true :=
            List.forall_mem_cons.2
              ⟨by decide, fun d hd =>
                isPlainChar_of_isDigit (List.mem_takeWhile_imp hd)⟩
          obtain ⟨r, htakes, htext⟩ := e.takes_repeater cs
          have hspeaks := (ih _ (hshorter Char.isDigit)
            ((hsplit ▸ h).of_append hplain) rfl).append rfl htakes
          rw [htext, ← String.ofList_append] at hspeaks
          rw [reread, if_neg hspace, if_pos (beq_self_eq_true '*')]
          rw [← hsplit] at hspeaks
          exact hspeaks
        · have hsign : c ≠ '$' := fun hc => h.sign (hc ▸ List.mem_cons_self)
          have htakes := h.holds.takes hsign hstar (by simpa using hspace)
          have hspeaks := e.speaks_nil.append rfl htakes
          rw [List.append_nil] at hspeaks
          rw [reread, if_neg hspace, if_neg (by simpa using hstar)]
          rwa [String.append_empty] at hspeaks

end Enclosure

end Lexer

end Scaffold

import Scaffold.Token.Lexer
/-!
The tokens of a text between braces.  The lexer lets a literal run over nested
braces and counts them, but a number or a field cuts the literal off; a brace
that was opened in front of the cut and is closed behind it then comes out as a
closing bracket, to which no opening one belongs.  So the tokens of a text
always tile it, and are free of brackets exactly if all of its numbers and
fields stand outside nested braces.  Main statement: `tokensFrom_body`.
-/
namespace Scaffold

namespace TokenKind

/-- What a text consists of, besides braces that literals do not hold. -/
def isTextPart : TokenKind → Bool
  | .literal _ | .blank _ | .repeater _ | .textPlaceholder | .number _ |
        .field _ _ =>
      true
  | .operator _ | .bracket _ _ | .quote _ => false

end TokenKind

namespace Token

def isTextPart (t : Token) : Bool := t.kind.isTextPart

/-- A brace that closes a text or a field of braces in it. -/
def isClosingBrace (t : Token) : Bool := t.isBracket .expression false

/-- Tokens that follow one another without gaps from one place of a source up to
another, none of them empty. -/
def Tile : List Token → Nat → Nat → Prop
  | [], start, stop => start = stop
  | t :: ts, start, stop =>
      t.start = start ∧ start < t.stop ∧ Tile ts t.stop stop

end Token

namespace Lexer

/-- A character that stands for itself in a text. -/
def isPlainChar (c : Char) : Bool :=
  c != '$' && c != '\\' && c != '{' && c != '}'

/-- The label of a field, if it has one. -/
def fieldLabel : Option (List Char) → List Char
  | none => []
  | some name => ':' :: name

/-- What is left of a text some braces deep: plain characters, runs of `$`,
fields and braces, which are all closed at its end.  A run is as long as
possible, and no single `$` in front of a brace, where it would begin a field.
Only a deep text has runs and fields within braces. -/
inductive Body (deep : Bool) : Nat → List Char → Prop
  | nil : Body deep 0 []
  | plain {depth c cs} (hc : isPlainChar c = true) (h : Body deep depth cs) :
      Body deep depth (c :: cs)
  | run {depth cs} (more : Nat) (hdepth : deep = true ∨
    depth = 0) (hlong : cs.head? ≠ some '$')
      (hsingle : more = 0 → cs.head? ≠ some '{') (h : Body deep depth cs) :
      Body deep depth ('$' :: (List.replicate more '$' ++ cs))
  | field {depth cs} (digits : List Char) (name : Option (List Char))
      (hdepth : deep = true ∨ depth = 0) (hdigits : digits ≠ [])
      (hdecimal : ∀ c ∈ digits, c.isDigit = true)
      (hname : ∀ c ∈ fieldLabel name, c ≠ '{' ∧ c ≠ '}')
      (h : Body deep depth cs) :
      Body deep depth ('$' :: '{' :: (digits ++ fieldLabel name ++ '}' :: cs))
  | opened {depth cs} (h : Body deep (depth + 1) cs) :
    Body deep depth ('{' :: cs)
  | closed {depth cs} (h : Body deep depth cs) :
    Body deep (depth + 1) ('}' :: cs)

def within (depth : Nat) : Context := { expression := depth + 1 }

theorem isPlainChar_iff {c : Char} :
    isPlainChar c = true ↔ c ≠ '$' ∧ c ≠ '\\' ∧ c ≠ '{' ∧ c ≠ '}' := by
  simp [isPlainChar, and_assoc]

theorem isPlainChar_of_isDigit {c : Char} (hc : c.isDigit = true) :
    isPlainChar c = true := by
  rw [isPlainChar_iff]
  refine ⟨?_, ?_, ?_, ?_⟩ <;> rintro rfl <;> revert hc <;> decide

theorem Body.of_plain_append {deep : Bool} {depth : Nat} {pre rest : List Char}
    (hpre : ∀ c ∈ pre, isPlainChar c = true) (h : Body deep depth rest) :
    Body deep depth (pre ++ rest) := by
  induction pre with
  | nil => exact h
  | cons c pre ih =>
      exact .plain (hpre c List.mem_cons_self)
        (ih fun d hd => hpre d (List.mem_cons_of_mem c hd))

theorem Body.of_cons_plain {deep : Bool} {depth : Nat} {c : Char}
    {cs : List Char} (hc : isPlainChar c = true)
    (h : Body deep depth (c :: cs)) : Body deep depth cs := by
  cases h with
  | plain _ h => exact h
  | run | field | opened | closed => exact absurd hc (by decide)

theorem Body.of_append_plain {deep : Bool} {depth : Nat} {pre rest : List Char}
    (hpre : ∀ c ∈ pre, isPlainChar c = true)
    (h : Body deep depth (pre ++ rest)) : Body deep depth rest := by
  induction pre with
  | nil => exact h
  | cons c pre ih =>
      exact ih (fun d hd => hpre d (List.mem_cons_of_mem c hd))
        (h.of_cons_plain (hpre c List.mem_cons_self))

/-! ### Literals -/

section Literal

variable (outer depth : Nat) (before : Option Char) (cs : List Char)

theorem literalRun_sign :
    literalRun (outer + 1) (within depth) before ('$' :: cs) =
      ⟨[], 0, depth + 1⟩ := by
  simp [literalRun, isFraction, within, Context.inExpression]

theorem literalRun_opened :
    literalRun (outer + 1) (within depth) before ('{' :: cs) =
      (literalRun (outer + 1) (within (depth + 1)) (some '{') cs).cons '{' := by
  have houter : (outer : Int) + 1 ≠ 0 := by omega
  simp [literalRun, within, actsAsOperator, Operator.ofChar?, houter]

theorem literalRun_closed (hdepth : outer ≤ depth) :
    literalRun (outer + 1) (within (depth + 1)) before ('}' :: cs) =
      (literalRun (outer + 1) (within depth) (some '}') cs).cons '}' := by
  have houter : (outer : Int) + 1 ≠ 0 := by omega
  have hinner : (outer : Int) + 1 < (depth : Int) + 1 + 1 := by omega
  simp [literalRun, within, actsAsOperator, Operator.ofChar?, houter, hinner]

theorem literalRun_closing :
    literalRun (outer + 1) (within outer) before ('}' :: cs) =
      ⟨[], 0, outer + 1⟩ := by
  have houter : (outer : Int) + 1 ≠ 0 := by omega
  simp [literalRun, within, actsAsOperator, Operator.ofChar?, houter]

theorem literalRun_plain {c : Char} (hc : isPlainChar c = true) :
    literalRun (outer + 1) (within depth) before (c :: cs) =
      (literalRun (outer + 1) (within depth) (some c) cs).cons c := by
  obtain ⟨hsign, hescape, hopen, hclose⟩ := isPlainChar_iff.1 hc
  have houter : (outer : Int) + 1 ≠ 0 := by omega
  have hinside : (within depth).inExpression = true := by
    simp only [within, Context.inExpression, bne_iff_ne]
    omega
  have hquote : (within depth).quote = none := rfl
  have hoperator : actsAsOperator (within depth) c = false := by
    rw [actsAsOperator]
    split <;> simp [hinside]
  rw [literalRun.eq_def]
  simp [isFraction, hinside, hquote, hoperator, hsign, hescape, hopen,
    hclose, houter]

end Literal

/-- What cutting `chunk` off a text means: what is left is a text at least as
deep, a flat text stays flat, and if what is left has nothing within braces,
neither has the whole. -/
structure Cut (deep : Bool) (depth after : Nat) (chunk rest : List Char) :
    Prop where
  le : depth ≤ after
  body : Body deep after rest
  flat : deep = false → depth = 0 → after = 0
  back : after = 0 → Body false 0 rest → Body false depth (chunk ++ rest)

/-- What a literal takes of a text: it goes on to the next number or field, or
to the brace that closes the one it began in.  Nothing it runs over is a number
or a field. -/
theorem literalRun_body {deep : Bool} {outer depth : Nat} {cs : List Char}
    (h : Body deep depth cs) (hdepth : outer ≤ depth) (before : Option Char) :
    ∃ (chunk rest : List Char) (after : Nat), cs = chunk ++ rest ∧
      (literalRun (outer + 1) (within depth) before (cs ++ ['}'])).length =
        chunk.length ∧
      (literalRun (outer + 1) (within depth) before (cs ++ ['}'])).depth =
        (after : Int) + 1 ∧
      outer ≤ after ∧ Body deep after rest ∧
      (deep = false → outer = 0 → after = 0) ∧
      (after = 0 → Body false 0 rest → Body false depth cs) := by
  induction h generalizing before with
  | nil =>
      obtain rfl := Nat.le_zero.1 hdepth
      refine ⟨[], [], 0, rfl, ?_, ?_, hdepth, .nil, fun _ _ =>
        rfl, fun _ h => h⟩
      · rw [List.nil_append, literalRun_closing]
        rfl
      · rw [List.nil_append, literalRun_closing]
  | @plain depth c cs hc h ih =>
      obtain ⟨chunk, rest, after, rfl, hlength, hafter, hle, hrest,
          hflat, hback⟩ :=
        ih hdepth (some c)
      refine ⟨c :: chunk, rest, after, rfl, ?_, ?_, hle, hrest, hflat,
        fun hzero hfalse => .plain hc (hback hzero hfalse)⟩ <;>
        rw [List.cons_append, literalRun_plain _ _ _ _ hc]
      · rw [LiteralRun.cons, hlength, List.length_cons]
      · exact hafter
  | @run depth cs more hflat hlong hsingle h ih =>
      have hstop := fun rest => literalRun_sign outer depth before rest
      refine ⟨[], _, depth, rfl, ?_, ?_, hdepth,
        .run more hflat hlong hsingle h, ?_, fun hzero hfalse => hzero ▸ hfalse⟩
      · rw [List.cons_append, hstop]
        rfl
      · rw [List.cons_append, hstop]
      · rintro rfl -
        simpa using hflat
  | @field depth cs digits name hflat hdigits hdecimal hname h ih =>
      have hstop := fun rest => literalRun_sign outer depth before rest
      refine ⟨[], _, depth, rfl, ?_, ?_, hdepth, .field digits name hflat
        hdigits hdecimal hname h, ?_, fun hzero hfalse => hzero ▸ hfalse⟩
      · rw [List.cons_append, hstop]
        rfl
      · rw [List.cons_append, hstop]
      · rintro rfl -
        simpa using hflat
  | @opened depth cs h ih =>
      obtain ⟨chunk, rest, after, rfl, hlength, hafter, hle, hrest,
          hflat, hback⟩ :=
        ih (Nat.le_succ_of_le hdepth) (some '{')
      refine ⟨'{' :: chunk, rest, after, rfl, ?_, ?_, hle, hrest, hflat,
        fun hzero hfalse => .opened (hback hzero hfalse)⟩ <;>
        rw [List.cons_append, literalRun_opened]
      · rw [LiteralRun.cons, hlength, List.length_cons]
      · exact hafter
  | @closed depth cs h ih =>
      rcases Nat.lt_or_eq_of_le hdepth with hinner | rfl
      · obtain ⟨chunk, rest, after, rfl, hlength, hafter, hle, hrest,
            hflat, hback⟩ :=
          ih (Nat.le_of_lt_succ hinner) (some '}')
        refine ⟨'}' :: chunk, rest, after, rfl, ?_, ?_, hle, hrest, hflat,
          fun hzero hfalse => .closed (hback hzero hfalse)⟩ <;>
          rw [List.cons_append,
            literalRun_closed _ _ _ _ (Nat.le_of_lt_succ hinner)]
        · rw [LiteralRun.cons, hlength, List.length_cons]
        · exact hafter
      · refine ⟨[], '}' :: cs, depth + 1, rfl, ?_, ?_, Nat.le_refl _,
          .closed h, fun _ hzero => hzero, fun hzero =>
          absurd hzero (Nat.succ_ne_zero depth)⟩
        · rw [List.cons_append, literalRun_closing]
          rfl
        · rw [List.cons_append, literalRun_closing]

/-! ### Runs of characters in front of the closing brace -/

theorem exists_run (test : Char → Bool) (htest : test '}' = false)
    (cs : List Char) :
    ∃ run rest : List Char, cs = run ++ rest ∧ (∀ c ∈ run, test c = true) ∧
      (cs ++ ['}']).takeWhile test = run := by
  refine ⟨cs.takeWhile test, cs.dropWhile test, (List.takeWhile_append_dropWhile
    ..).symm, List.all_eq_true.1 List.all_takeWhile, ?_⟩
  induction cs with
  | nil => simp [htest]
  | cons c cs ih => simp [List.takeWhile_cons, ih]

theorem isPlainChar_of_isSpace {c : Char} (hc : isSpace c = true) :
    isPlainChar c = true := by
  rw [isPlainChar_iff]
  refine ⟨?_, ?_, ?_, ?_⟩ <;> rintro rfl <;> revert hc <;> decide

/-- A part of a text that spans some first characters and then plain ones, and
is as deep behind as in front. -/
def SpansPlain (ctx : Context) (first : Nat) (cs : List Char) (l : Lexeme) :
    Prop :=
  l.kind.isTextPart = true ∧ l.context = ctx ∧
    ∃ run rest : List Char, cs = run ++ rest ∧
      (∀ c ∈ run, isPlainChar c = true) ∧ l.length = first + run.length

theorem repeater?_body (ctx : Context) (cs : List Char) :
    ∃ l, repeater? ctx ('*' :: (cs ++ ['}'])) = some l ∧
    SpansPlain ctx 1 cs l := by
  obtain ⟨run, rest, hsplit, hdigits, hrun⟩ :=
    exists_run Char.isDigit (by decide) cs
  refine ⟨_, rfl, rfl, rfl, run, rest, hsplit, fun c hc =>
    isPlainChar_of_isDigit (hdigits c hc), ?_⟩
  simp only [hrun, Nat.add_comm]

theorem blank?_body (ctx : Context) {c : Char} (hc : isSpace c = true)
    (cs : List Char) :
    ∃ l, blank? ctx (c :: (cs ++ ['}'])) = some l ∧ SpansPlain ctx 1 cs l := by
  obtain ⟨run, rest, hsplit, hspaces, hrun⟩ := exists_run isSpace (by decide) cs
  refine ⟨_, by rw [blank?, if_pos hc], rfl, rfl, run, rest, hsplit,
    fun d hd => isPlainChar_of_isSpace (hspaces d hd), ?_⟩
  simp only [List.length_cons, hrun, Nat.add_comm]

/-- What a number takes behind its `$` signs: levels, direction and first value
are plain. -/
theorem number?_body (ctx : Context) (more : Nat) {cs : List Char}
    (hlong : cs.head? ≠ some '$') :
    ∃ l, number? ctx
      ('$' :: (List.replicate more '$' ++ (cs ++ ['}']))) = some l ∧
      SpansPlain ctx (more + 1) cs l := by
  have hsigns :
      (List.replicate more '$' ++ (cs ++ ['}'])).takeWhile (· == '$') =
      List.replicate more '$' := by
    rw [List.takeWhile_append_of_pos (by simp)]
    cases cs with
    | nil => simp
    | cons c cs =>
        have hc : c ≠ '$' := fun h => hlong (congrArg some h)
        simp [hc]
  have hbehind : (List.replicate more '$' ++ (cs ++ ['}'])).drop more =
      cs ++ ['}'] :=
    List.drop_left' List.length_replicate
  simp only [number?, hsigns, hbehind, List.length_replicate]
  split
  · next modifiers hmodifiers =>
      obtain ⟨behind, rfl, rfl⟩ : ∃ behind, cs = '@' :: behind ∧
          modifiers = behind ++ ['}'] := by
        cases cs with
        | nil => simp at hmodifiers
        | cons c behind =>
            obtain ⟨rfl, rfl⟩ := List.cons.inj hmodifiers
            exact ⟨behind, rfl, rfl⟩
      obtain ⟨levels, signed, rfl, hlevels, hlevelsRun⟩ :=
        exists_run (· == '^') (by decide) behind
      have hsigned : (levels ++ signed ++ ['}']).drop levels.length =
          signed ++ ['}'] := by
        rw [List.append_assoc, List.drop_left]
      obtain ⟨sign, value, rfl, hsign, hsignRun⟩ : ∃ sign value : List Char,
          signed = sign ++ value ∧ (∀ c ∈ sign, isPlainChar c = true) ∧
            (if (signed ++ ['}']).head? == some '-' then 1 else 0) =
              sign.length := by
        match signed with
        | '-' :: value => exact ⟨['-'], value, rfl, by simp [isPlainChar], rfl⟩
        | [] => exact ⟨[], [], rfl, by simp, rfl⟩
        | c :: value =>
            by_cases hc : c = '-'
            · exact ⟨[c], value, rfl, by simp [hc, isPlainChar], by simp [hc]⟩
            · exact ⟨[], c :: value, rfl, by simp, by simp [hc]⟩
      obtain ⟨digits, rest, rfl, hdigits, hdigitsRun⟩ :=
        exists_run Char.isDigit (by decide) value
      have hvalue : (sign ++ (digits ++ rest) ++ ['}']).drop sign.length =
          digits ++ rest ++ ['}'] := by
        rw [List.append_assoc, List.drop_left]
      refine ⟨_, rfl, rfl, rfl, '@' :: (levels ++ (sign ++ digits)), rest,
        by simp, ?_, ?_⟩
      · have hlevel : ∀ c ∈ levels, isPlainChar c = true := by
          intro c hc
          obtain rfl := beq_iff_eq.1 (hlevels c hc)
          rfl
        have hdigit := fun c hc => isPlainChar_of_isDigit (hdigits c hc)
        simp only [List.mem_cons, List.mem_append]
        rintro c (rfl | hc | hc | hc)
        · rfl
        · exact hlevel c hc
        · exact hsign c hc
        · exact hdigit c hc
      · simp only [hlevelsRun, hsigned, hsignRun, hvalue, hdigitsRun,
          List.length_cons, List.length_append]
        omega
  · exact ⟨_, rfl, rfl, rfl, [], cs, rfl, by simp, rfl⟩

theorem placeholderLength_name {name : List Char}
    (hname : ∀ c ∈ name, c ≠ '{' ∧ c ≠ '}') (taken : Nat) (cs : List Char) :
    placeholderLength [] taken (name ++ '}' :: cs) =
      .ok (taken + name.length) := by
  induction name generalizing taken with
  | nil => rfl
  | cons c name ih =>
      obtain ⟨⟨hopen, hclose⟩, htail⟩ := List.forall_mem_cons.1 hname
      rw [List.cons_append, placeholderLength, ih htail, List.length_cons,
        Nat.add_right_comm, Nat.add_assoc]
      · exact hopen
      · exact hclose

/-- The body of a field is read up to its closing brace. -/
theorem fieldBody_body {digits : List Char} {name : Option (List Char)}
    (hdigits : digits ≠ []) (hdecimal : ∀ c ∈ digits, c.isDigit = true)
    (hname : ∀ c ∈ fieldLabel name, c ≠ '{' ∧ c ≠ '}') (cs : List Char) :
    ∃ index text, fieldBody (digits ++ fieldLabel name ++ '}' :: cs) =
      .ok (index, text, (digits ++ fieldLabel name).length) := by
  have hrun : (digits ++ (fieldLabel name ++ '}' :: cs)).takeWhile
      Char.isDigit = digits := by
    rw [List.takeWhile_append_of_pos hdecimal]
    cases name <;> simp [fieldLabel]
  have hsome : digits.isEmpty = false := by simpa using hdigits
  have hbehind : (digits ++ (fieldLabel name ++ '}' :: cs)).drop digits.length =
      fieldLabel name ++ '}' :: cs := List.drop_left
  rw [List.append_assoc]
  simp only [fieldBody, hrun, hsome, hbehind]
  cases name with
  | none =>
      refine ⟨Numeral.ofDigits? digits, "", ?_⟩
      simp [fieldLabel]
  | some name =>
      have hplain : ∀ c ∈ name, c ≠ '{' ∧ c ≠ '}' := fun c hc =>
        hname c (List.mem_cons_of_mem ':' hc)
      refine ⟨Numeral.ofDigits? digits, String.ofList name, ?_⟩
      simp [fieldLabel, placeholderLength_name hplain]
      omega

/-- A field is one token, as long as it is written. -/
theorem field?_body (depth offset : Nat) {digits : List Char}
    {name : Option (List Char)} (hdigits : digits ≠ [])
    (hdecimal : ∀ c ∈ digits, c.isDigit = true)
    (hname : ∀ c ∈ fieldLabel name, c ≠ '{' ∧ c ≠ '}') (cs : List Char) :
    ∃ l, field? (within depth) offset
        ('$' :: '{' :: (digits ++ fieldLabel name ++ '}' :: cs)) =
          .ok (some l) ∧
      l.kind.isTextPart = true ∧ l.context = within depth ∧
      l.length = (digits ++ fieldLabel name).length + 3 := by
  have hinside : (within depth).inExpression = true := by
    simp only [within, Context.inExpression, bne_iff_ne]
    omega
  obtain ⟨index, text, hread⟩ := fieldBody_body hdigits hdecimal hname cs
  exact ⟨_, by simp only [field?, hinside, hread, List.drop_left]; rfl,
    rfl, rfl, rfl⟩

/-! ### One token -/

/-- A token that is a part of a text, and cuts off what it spans. -/
def TakesPart (deep : Bool) (depth : Nat) (cs : List Char) (l : Lexeme) :
    Prop :=
  l.kind.isTextPart = true ∧ ∃ (chunk rest : List Char) (after : Nat),
    cs = chunk ++ rest ∧
    l.length = chunk.length ∧ l.context = within after ∧
      Cut deep depth after chunk rest

theorem SpansPlain.takesPart {deep : Bool} {depth : Nat} {first cs : List Char}
    {l : Lexeme} (h : SpansPlain (within depth) first.length cs l)
    (hbody : Body deep depth cs)
    (hfirst : depth = 0 → Body false 0 cs → Body false 0 (first ++ cs)) :
    TakesPart deep depth (first ++ cs) l := by
  obtain ⟨hpart, hcontext, run, rest, rfl, hrun, hlength⟩ := h
  refine ⟨hpart, first ++ run, rest, depth, (List.append_assoc ..).symm, ?_,
    hcontext, Nat.le_refl depth, hbody.of_append_plain hrun, fun _ hzero =>
    hzero, ?_⟩
  · rw [hlength, List.length_append]
  · intro hzero hrest
    rw [List.append_assoc, hzero]
    exact hfirst hzero (hrest.of_plain_append hrun)

theorem field?_eq_none {ctx : Context} {offset : Nat} {c : Char}
    {cs : List Char} (h : c = '$' → cs.head? ≠ some '{') :
    field? ctx offset (c :: cs) = .ok none := by
  rw [field?.eq_def]
  split
  · next heq =>
      obtain ⟨rfl, rfl⟩ := List.cons.inj heq
      exact absurd rfl (h rfl)
  · rfl

/-- In front of anything but a `$` there is neither a number nor a
placeholder. -/
theorem lexeme?_of_ne_sign {ctx : Context} {before : Option Char} {offset : Nat}
    {c : Char} {cs : List Char} (hc : c ≠ '$') :
    lexeme? ctx before offset (c :: cs) =
      .ok (repeater? ctx (c :: cs) <|> blank? ctx (c :: cs) <|>
        literal? ctx before (c :: cs) <|>
        mark? ctx (c :: cs)) := by
  rw [lexeme?, field?_eq_none (absurd · hc)]
  simp [textPlaceholder?, number?, hc]

theorem lexeme?_closing (depth : Nat) (before : Option Char) (offset : Nat)
    (cs : List Char) :
    lexeme? (within depth) before offset ('}' :: cs) =
      .ok (some { kind := .bracket .expression false, length := 1,
                  context := { expression := depth }, length_pos :=
                    Nat.one_pos }) := by
  rw [lexeme?_of_ne_sign (by decide)]
  have hnone : literal? (within depth) before ('}' :: cs) = none := by
    have hrun : literalRun (within depth).expression (within depth) before
        ('}' :: cs) =
        ⟨[], 0, depth + 1⟩ := literalRun_closing depth before cs
    simp only [literal?, hrun, ↓reduceDIte]
  rw [hnone]
  have hback : (depth : Int) + 1 + -1 = depth := Int.add_neg_cancel_right ..
  change Except.ok (some (Lexeme.mk (.bracket .expression false) 1
    { expression := (depth : Int) + 1 + -1 } Nat.one_pos)) = _
  rw [hback]

/-- Where a literal takes something of a text, it is a part of it. -/
theorem literal?_body {deep : Bool} {depth : Nat} {cs : List Char}
    (h : Body deep depth cs) (before : Option Char)
    (hpos :
      (literalRun (depth + 1) (within depth) before (cs ++ ['}'])).length ≠ 0) :
    ∃ l, literal? (within depth) before (cs ++ ['}']) = some l ∧
    TakesPart deep depth cs l := by
  obtain ⟨chunk, rest, after, hsplit, hlength, hafter, hle, hrest,
      hflat, hback⟩ :=
    literalRun_body h (Nat.le_refl depth) before
  refine ⟨_, dif_neg hpos, rfl, chunk, rest, after, hsplit, hlength, ?_, hle,
    hrest, hflat, fun hzero hfalse => hsplit ▸ hback hzero hfalse⟩
  have hdepth : (literalRun (within depth).expression (within depth) before
      (cs ++ ['}'])).depth = (after : Int) + 1 := hafter
  simp only [hdepth]
  rfl

theorem lexeme?_literal {deep : Bool} {depth : Nat} {c : Char} {cs : List Char}
    (h : Body deep depth (c :: cs)) {before : Option Char} (offset : Nat)
    (hsign : c ≠ '$') (hstar : c ≠ '*') (hspace : isSpace c = false)
    (hpos : (literalRun (depth + 1) (within depth) before
      (c :: cs ++ ['}'])).length ≠ 0) :
    ∃ l, lexeme? (within depth) before offset (c :: cs ++ ['}']) =
      .ok (some l) ∧
      TakesPart deep depth (c :: cs) l := by
  obtain ⟨l, hl, htakes⟩ := literal?_body h before hpos
  refine ⟨l, ?_, htakes⟩
  rw [List.cons_append] at hl ⊢
  rw [lexeme?_of_ne_sign hsign, hl]
  simp [repeater?, blank?, hstar, hspace]

theorem lexeme?_plain {deep : Bool} {depth : Nat} {c : Char} {cs : List Char}
    (hc : isPlainChar c = true) (h : Body deep depth cs) (before : Option Char)
    (offset : Nat) :
    ∃ l, lexeme? (within depth) before offset (c :: cs ++ ['}']) =
      .ok (some l) ∧
      TakesPart deep depth (c :: cs) l := by
  have hsign : c ≠ '$' := (isPlainChar_iff.1 hc).1
  have hfirst : depth = 0 → Body false 0 cs → Body false 0 ([c] ++ cs) :=
    fun _ => .plain hc
  by_cases hstar : c = '*'
  · obtain rfl := hstar
    obtain ⟨l, hl, hspan⟩ := repeater?_body (within depth) cs
    refine ⟨l, ?_, hspan.takesPart h hfirst⟩
    rw [List.cons_append, lexeme?_of_ne_sign hsign, hl]
    rfl
  by_cases hspace : isSpace c = true
  · obtain ⟨l, hl, hspan⟩ := blank?_body (within depth) hspace cs
    refine ⟨l, ?_, hspan.takesPart h hfirst⟩
    rw [List.cons_append, lexeme?_of_ne_sign hsign, hl]
    simp [repeater?, hstar]
  · apply lexeme?_literal (.plain hc h) offset hsign hstar
      (by simpa using hspace)
    rw [List.cons_append, literalRun_plain _ _ _ _ hc]
    exact Nat.succ_ne_zero _

theorem lexeme?_run {deep : Bool} {depth more : Nat} {cs : List Char}
    (hlong : cs.head? ≠ some '$') (hsingle : more = 0 → cs.head? ≠ some '{')
    (h : Body deep depth cs) (before : Option Char) (offset : Nat) :
    ∃ l, lexeme? (within depth) before offset
      ('$' :: (List.replicate more '$' ++ cs) ++ ['}']) =
        .ok (some l) ∧
      TakesPart deep depth ('$' :: (List.replicate more '$' ++ cs)) l := by
  have hfirst : depth = 0 → Body false 0 cs →
      Body false 0 ('$' :: List.replicate more '$' ++ cs) :=
        fun _ => .run more (.inr rfl) hlong hsingle
  have hfield : field? (within depth) offset
      ('$' :: (List.replicate more '$' ++ (cs ++ ['}']))) = .ok none := by
    apply field?_eq_none
    rintro -
    cases more with
    | zero =>
        cases cs with
        | nil => simp
        | cons c cs => simpa using hsingle rfl
    | succ more => simp [List.replicate_succ]
  rw [List.cons_append, List.append_assoc]
  by_cases hplace : more = 0 ∧ cs.head? = some '#'
  · obtain ⟨rfl, hhash⟩ := hplace
    cases cs with
    | nil => cases hhash
    | cons c cs =>
        obtain rfl := Option.some.inj hhash
        have hspan : SpansPlain (within depth) ['$'].length ('#' :: cs)
            { kind := .textPlaceholder, length := 2,
              context := within depth } :=
          ⟨rfl, rfl, ['#'], cs, rfl, by simp [isPlainChar], rfl⟩
        refine ⟨_, ?_, hspan.takesPart h hfirst⟩
        rw [lexeme?, hfield]
        rfl
  · obtain ⟨l, hl, hspan⟩ := number?_body (within depth) more hlong
    have hnone : textPlaceholder? (within depth)
        ('$' :: (List.replicate more '$' ++ (cs ++ ['}']))) = none := by
      rw [textPlaceholder?.eq_def]
      split
      · next rest heq =>
          obtain ⟨-, htail⟩ := List.cons.inj heq
          cases more with
          | succ more => simp [List.replicate_succ] at htail
          | zero =>
              cases cs with
              | nil => simp at htail
              | cons c cs =>
                  obtain ⟨rfl, -⟩ := List.cons.inj htail
                  exact absurd ⟨rfl, rfl⟩ hplace
      · rfl
    refine ⟨l, ?_, SpansPlain.takesPart (by simpa using hspan) h hfirst⟩
    rw [lexeme?, hfield, hnone, hl]
    rfl

/-- Where a text is not at its end, a part of it is ahead, or a brace that
closes one of those it has around it. -/
theorem lexeme?_body {deep : Bool} {depth : Nat} {c : Char} {cs : List Char}
    (h : Body deep depth (c :: cs)) (before : Option Char) (offset : Nat) :
    (∃ l, lexeme? (within depth) before offset (c :: cs ++ ['}']) =
      .ok (some l) ∧
      TakesPart deep depth (c :: cs) l) ∨
    ∃ outer, depth = outer + 1 ∧ c = '}' ∧ Body deep outer cs := by
  cases h with
  | plain hc h => exact .inl (lexeme?_plain hc h before offset)
  | @run _ behind more hdepth hlong hsingle h =>
      exact .inl (lexeme?_run hlong hsingle h before offset)
  | @field _ behind digits name hdepth hdigits hdecimal hname h =>
      obtain ⟨l, hl, hpart, hcontext, hlength⟩ :=
        field?_body depth offset hdigits hdecimal hname (behind ++ ['}'])
      refine .inl ⟨l, ?_, hpart, '$' :: '{' :: (digits ++ fieldLabel name ++
        ['}']), behind, depth, by simp, by simp [hlength, Nat.add_assoc],
        hcontext, Nat.le_refl depth, h, fun _ hzero => hzero, ?_⟩
      · have hsource : '$' :: '{' ::
            (digits ++ fieldLabel name ++ '}' :: behind) ++ ['}'] =
            '$' :: '{' ::
                (digits ++ fieldLabel name ++ '}' :: (behind ++ ['}'])) := by
              simp
        rw [hsource, lexeme?, hl]
      · intro hzero hrest
        have hfield : Body false depth _ :=
          .field digits name (.inr hzero) hdigits hdecimal hname (hzero ▸ hrest)
        simpa using hfield
  | opened h =>
      refine .inl (lexeme?_literal (.opened h) offset (by decide) (by decide)
        (by decide) ?_)
      rw [List.cons_append, literalRun_opened]
      exact Nat.succ_ne_zero _
  | @closed outer _ h => exact .inr ⟨outer, rfl, rfl, h⟩

/-! ### All tokens -/

theorem tokensFrom_of_lexeme? {ctx : Context} {before : Option Char}
    {offset : Nat} {cs : List Char} (hcs : cs ≠ []) {l : Lexeme}
    (hl : lexeme? ctx before offset cs = .ok (some l)) {tokens : List Token}
    (htokens : tokensFrom l.context (cs.take l.length).getLast?
      (offset + l.length) (cs.drop l.length) = .ok tokens) :
    tokensFrom ctx before offset cs =
      .ok (⟨l.kind, offset, offset + l.length⟩ :: tokens) := by
  have hsome : cs.isEmpty = false := by simpa using hcs
  rw [tokensFrom]
  simp [hsome, hl, htokens]

/-- How the tokens of a text cover it: one after another from its first
character to its last, parts of a text and braces that close.  As many braces
close as it is deep; none does if and only if everything but braces and plain
characters stands outside of braces. -/
structure Covers (deep : Bool) (depth offset : Nat) (cs : List Char)
    (tokens : List Token) : Prop where
  tile : Token.Tile tokens offset (offset + cs.length)
  parts : ∀ t ∈ tokens, t.isTextPart = true ∨ t.isClosingBrace = true
  closing : depth ≤ tokens.countP Token.isClosingBrace
  flat : deep = false → depth = 0 → tokens.countP Token.isClosingBrace = 0
  back : tokens.countP Token.isClosingBrace = 0 → Body false depth cs

theorem Covers.of_part {deep : Bool} {depth after offset : Nat}
    {chunk rest : List Char} {kind : TokenKind} (hkind : kind.isTextPart = true)
    (hchunk : 0 < chunk.length) (hcut : Cut deep depth after chunk rest)
    {tokens : List Token}
    (h : Covers deep after (offset + chunk.length) rest tokens) :
    Covers deep depth offset (chunk ++ rest)
      (⟨kind, offset, offset + chunk.length⟩ :: tokens) := by
  have hopen : Token.isClosingBrace ⟨kind, offset, offset + chunk.length⟩ =
      false := by
    cases kind <;> first | rfl | cases hkind
  have hcount : (⟨kind, offset, offset + chunk.length⟩ :: tokens).countP
      Token.isClosingBrace =
      tokens.countP Token.isClosingBrace := by simp [hopen]
  refine ⟨⟨rfl, Nat.lt_add_of_pos_right hchunk, ?_⟩, ?_, ?_, ?_, ?_⟩
  · rw [List.length_append, ← Nat.add_assoc]
    exact h.tile
  · exact List.forall_mem_cons.2 ⟨.inl hkind, h.parts⟩
  · rw [hcount]
    exact Nat.le_trans hcut.le h.closing
  · intro hdeep hdepth
    rw [hcount]
    exact h.flat hdeep (hcut.flat hdeep hdepth)
  · rw [hcount]
    intro hnone
    have hafter : after = 0 := Nat.le_zero.1 (hnone ▸ h.closing)
    exact hcut.back hafter (hafter ▸ h.back hnone)

theorem Covers.of_closing {deep : Bool} {depth offset : Nat} {cs : List Char}
    {tokens : List Token} (h : Covers deep depth (offset + 1) cs tokens) :
    Covers deep (depth + 1) offset ('}' :: cs)
      (⟨.bracket .expression false, offset, offset + 1⟩ :: tokens) := by
  have hcount :
      (⟨.bracket .expression false, offset, offset + 1⟩ :: tokens).countP
        Token.isClosingBrace = tokens.countP Token.isClosingBrace + 1 :=
    List.countP_cons_of_pos rfl
  refine ⟨⟨rfl, Nat.lt_succ_self offset, ?_⟩, ?_, ?_, ?_, ?_⟩
  · rw [List.length_cons, Nat.add_comm cs.length, ← Nat.add_assoc]
    exact h.tile
  · exact List.forall_mem_cons.2 ⟨.inr rfl, h.parts⟩
  · rw [hcount]
    exact Nat.succ_le_succ h.closing
  · exact fun _ hzero => absurd hzero (Nat.succ_ne_zero depth)
  · rw [hcount]
    exact fun hzero => absurd hzero (Nat.succ_ne_zero _)

/-- The tokens of a text and of the brace behind it. -/
theorem tokensFrom_body {deep : Bool} {depth : Nat} {cs : List Char}
    (h : Body deep depth cs) (before : Option Char) (offset : Nat) :
    ∃ tokens, tokensFrom (within depth) before offset (cs ++ ['}']) =
        .ok (tokens ++
          [⟨.bracket .expression false, offset + cs.length,
            offset + cs.length + 1⟩]) ∧
      Covers deep depth offset cs tokens := by
  induction hlen : cs.length using Nat.strongRecOn
    generalizing depth cs before offset with
  | ind len ih =>
    subst hlen
    cases cs with
    | nil =>
        obtain rfl : depth = 0 := by
          cases h
          rfl
        refine ⟨[], ?_, rfl, by simp, Nat.zero_le _, fun _ _ =>
          rfl, fun _ => .nil⟩
        exact tokensFrom_of_lexeme? (by simp)
          (lexeme?_closing 0 before offset []) (by rw [tokensFrom]; rfl)
    | cons c cs =>
        rcases lexeme?_body h before offset with
          ⟨l, hl, hpart, chunk, rest, after, hsplit, hlength, hcontext, hcut⟩ |
          ⟨outer, rfl, rfl, hrest⟩
        · have hchunk : 0 < chunk.length := hlength ▸ l.length_pos
          rw [hsplit] at hl ih ⊢
          have hdrop : (chunk ++ rest ++ ['}']).drop l.length =
              rest ++ ['}'] := by
            rw [hlength, List.append_assoc, List.drop_left]
          obtain ⟨tokens, htokens, hcovers⟩ :=
            ih rest.length (by rw [List.length_append]; omega) hcut.body
              ((chunk ++ rest ++ ['}']).take l.length).getLast?
                (offset + chunk.length) rfl
          refine ⟨⟨l.kind, offset, offset + chunk.length⟩ :: tokens, ?_,
            hcovers.of_part hpart hchunk hcut⟩
          rw [← hcontext, ← hlength, ← hdrop] at htokens
          rw [tokensFrom_of_lexeme? (by simp) hl htokens, hlength,
            List.length_append, Nat.add_assoc offset]
          rfl
        · obtain ⟨tokens, htokens, hcovers⟩ :=
            ih cs.length (Nat.lt_succ_self _) hrest (some '}') (offset + 1) rfl
          refine ⟨⟨.bracket .expression false, offset, offset + 1⟩ :: tokens,
            ?_, hcovers.of_closing⟩
          have hclosing :=
            lexeme?_closing (outer + 1) before offset (cs ++ ['}'])
          rw [List.cons_append, tokensFrom_of_lexeme? (by simp) hclosing
            htokens, List.length_cons, Nat.add_comm cs.length, ← Nat.add_assoc]
          rfl

end Lexer

end Scaffold

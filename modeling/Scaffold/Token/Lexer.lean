import Scaffold.AbbreviationError
import Scaffold.Token
import Scaffold.Text.Alphanumeric
/-!
Cuts an abbreviation into tokens. The same character means different things in
attributes, in text and in quotes, so the lexer carries how deep it is in each.
Every rule takes the characters ahead and answers with a token kind and the
number of characters it spans, which is never zero; the tokens of a run
therefore tile the source.
-/
namespace Scaffold.Lexer

/-- How many brackets of each kind are open, and the open quote. An unbalanced
closing bracket makes a count negative, and anything but zero counts as
inside. -/
structure Context where
  group : Int := 0
  attributes : Int := 0
  expression : Int := 0
  quote : Option Char := none
  deriving DecidableEq, Repr

namespace Context

def inAttribute (ctx : Context) : Bool := ctx.attributes != 0

def inExpression (ctx : Context) : Bool := ctx.expression != 0

/-- The context after a bracket. -/
def afterBracket (ctx : Context) (kind : BracketKind) (opens : Bool) :
    Context :=
  let step : Int := if opens then 1 else -1
  match kind with
  | .group => { ctx with group := ctx.group + step }
  | .attributes => { ctx with attributes := ctx.attributes + step }
  | .expression => { ctx with expression := ctx.expression + step }

/-- The context after a quote character: the open quote closes, any other one
opens. -/
def afterQuote (ctx : Context) (c : Char) : Context :=
  { ctx with quote := if ctx.quote = some c then none else some c }

end Context

/-- What a rule found ahead: the token's kind, the number of characters it
spans, and the context behind it. -/
structure Lexeme where
  kind : TokenKind
  length : Nat
  context : Context
  length_pos : 0 < length := by omega

/-- The blanks that separate parts of an abbreviation. -/
def isSpace (c : Char) : Bool := c == ' ' || c == '\t' || c == '\u00a0'

def isQuoteMark (c : Char) : Bool := c == '"' || c == '\''

/-- The characters of a name outside attributes, text and quotes. -/
def isNameChar (c : Char) : Bool :=
  Text.isAlphanumeric c || c == '_' || c == '-' || c == ':' || c == '!'

/-- The length of a field's placeholder name, which ends before the first
closing brace that has no opening one. `opened` holds the places just behind the
open braces, the innermost first; a brace that stays open is reported by its
place. -/
def placeholderLength (opened : List Nat) (taken : Nat) :
    List Char → Except Nat Nat
  | [] =>
    match opened with
    | [] => .ok taken
    | inner :: _ => .error inner
  | '{' :: cs => placeholderLength ((taken + 1) :: opened) (taken + 1) cs
  | '}' :: cs =>
    match opened with
    | [] => .ok taken
    | _ :: outer => placeholderLength outer (taken + 1) cs
  | _ :: cs => placeholderLength opened (taken + 1) cs

/-- Index and name of a field, and how many of the characters behind the opening
brace they take. A failure is the number of characters in front of the place it
is about. -/
def fieldBody (cs : List Char) : Except Nat (Option Nat × String × Nat) :=
  let digits := cs.takeWhile Char.isDigit
  let named (index : Option Nat) (skipped : Nat) (cs : List Char) :
      Except Nat (Option Nat × String × Nat) :=
    match placeholderLength [] 0 cs with
    | .ok n => .ok (index, String.ofList (cs.take n), skipped + n)
    | .error n => .error (skipped + n)
  if digits.isEmpty then
    match cs with
    | c :: _ => if c.isAlpha then named none 0 cs else .ok (none, "", 0)
    | [] => .ok (none, "", 0)
  else
    let index := Numeral.ofDigits? digits
    match cs.drop digits.length with
    | ':' :: rest => named index (digits.length + 1) rest
    | _ => .ok (index, "", digits.length)

/-- A field, as in `${1:name}`, `${1}` or `${variable}`; only attributes and
text have fields. -/
def field? (ctx : Context) (offset : Nat) :
    List Char → Except AbbreviationError (Option Lexeme)
  | '$' :: '{' :: cs =>
    if ctx.inExpression || ctx.inAttribute then
      match fieldBody cs with
      | .error n =>
        .error (AbbreviationFault.openField.atOffset (offset + 2 + n))
      | .ok (index, name, n) =>
        match cs.drop n with
        | '}' :: _ =>
          .ok (some { kind := .field index name, length := n + 3,
                      context := ctx })
        | _ => .error (AbbreviationFault.openField.atOffset (offset + 2 + n))
    else .ok none
  | _ => .ok none

def textPlaceholder? (ctx : Context) : List Char → Option Lexeme
  | '$' :: '#' :: _ =>
    some { kind := .textPlaceholder, length := 2, context := ctx }
  | _ => none

/-- A running number: `$` signs, then after `@` the levels, the direction and
the first value. -/
def number? (ctx : Context) : List Char → Option Lexeme
  | '$' :: cs =>
    let more := (cs.takeWhile (· == '$')).length
    match cs.drop more with
    | '@' :: modifiers =>
      let levels := (modifiers.takeWhile (· == '^')).length
      let signed := modifiers.drop levels
      let reverse := signed.head? == some '-'
      let sign := if reverse then 1 else 0
      let digits := (signed.drop sign).takeWhile Char.isDigit
      let base := if digits.isEmpty then 1 else Numeral.ofDigits digits
      some {
        kind := .number { width := more + 1, reverse, base, levels }
        length := more + 2 + levels + sign + digits.length
        context := ctx }
    | _ =>
      some { kind := .number { width := more + 1 }, length := more + 1,
             context := ctx }
  | _ => none

/-- A repeater, with a count or without one. -/
def repeater? (ctx : Context) : List Char → Option Lexeme
  | '*' :: cs =>
    let digits := cs.takeWhile Char.isDigit
    let repeater : Repeater :=
      if digits.isEmpty then ⟨1, true⟩ else ⟨Numeral.ofDigits digits, false⟩
    some { kind := .repeater repeater, length := digits.length + 1,
           context := ctx }
  | _ => none

/-- A run of blanks. -/
def blank? (ctx : Context) : List Char → Option Lexeme
  | c :: cs =>
    if isSpace c then
      let run := c :: cs.takeWhile isSpace
      some {
        kind := .blank (String.ofList run), length := run.length, context := ctx
        length_pos := Nat.succ_pos _ }
    else none
  | [] => none

/-- Whether a character acts as an operator: never in quotes or text, and in
attributes only the equals sign does. -/
def actsAsOperator (ctx : Context) (c : Char) : Bool :=
  match Operator.ofChar? c with
  | some op =>
    ctx.quote.isNone && !ctx.inExpression && (!ctx.inAttribute || op == .equal)
  | none => false

/-- The characters that a literal stands for, how many it spans, and the depth
of text braces behind it. -/
structure LiteralRun where
  text : List Char
  length : Nat
  depth : Int

namespace LiteralRun

/-- The run with one more character in front that is part of the text. -/
def cons (c : Char) (run : LiteralRun) : LiteralRun :=
  ⟨c :: run.text, run.length + 1, run.depth⟩

end LiteralRun

/-- Whether a slash between two digits, as in `col-12/6`, belongs to a
literal. -/
def isFraction (ctx : Context) (before : Option Char) (rest : List Char) :
    Bool :=
  ctx.quote.isNone && !ctx.inExpression && !ctx.inAttribute
    && (before.map Char.isDigit).getD false &&
      (rest.head?.map Char.isDigit).getD false

/-- Whether a character ends a literal that began outside text braces. -/
def endsLiteral (ctx : Context) (c : Char) : Bool :=
  ctx.quote.isNone
    && ((!ctx.inAttribute && !isNameChar c)
      || (isSpace c && !ctx.inExpression)
      || (c == '*' && !ctx.inAttribute && !ctx.inExpression)
      || isQuoteMark c
      || (BracketKind.ofChar? c).isSome)

/-- The literal ahead, which may be empty. A backslash lets the next character
through. In text, where `outer` is not zero, braces nested in the literal stay
in it and `ctx.expression` counts them. -/
def literalRun (outer : Int) (ctx : Context) (before : Option Char) :
    List Char → LiteralRun
  | [] => ⟨[], 0, ctx.expression⟩
  | '\\' :: [] => ⟨[], 1, ctx.expression⟩
  | '\\' :: c :: rest =>
    let run := literalRun outer ctx (some c) rest
    ⟨c :: run.text, run.length + 2, run.depth⟩
  | c :: rest =>
    if c == '/' && isFraction ctx before rest then
      (literalRun outer ctx (some c) rest).cons c
    else if ctx.quote == some c || c == '$' || actsAsOperator ctx c then
      ⟨[], 0, ctx.expression⟩
    else if outer != 0 then
      if c == '{' then
        (literalRun outer { ctx with expression := ctx.expression + 1 }
          (some c) rest).cons c
      else if c == '}' then
        if outer < ctx.expression then
          (literalRun outer { ctx with expression := ctx.expression - 1 }
            (some c) rest).cons c
        else ⟨[], 0, ctx.expression⟩
      else (literalRun outer ctx (some c) rest).cons c
    else if endsLiteral ctx c then ⟨[], 0, ctx.expression⟩
    else (literalRun outer ctx (some c) rest).cons c

/-- A literal of at least one character of the source. -/
def literal? (ctx : Context) (before : Option Char) (cs : List Char) :
    Option Lexeme :=
  let run := literalRun ctx.expression ctx before cs
  if h : run.length = 0 then none
  else some {
    kind := .literal (String.ofList run.text), length := run.length
    context := { ctx with expression := run.depth }
    length_pos := Nat.pos_of_ne_zero h }

/-- An operator, a quote or a bracket, in any context. -/
def mark? (ctx : Context) : List Char → Option Lexeme
  | c :: _ =>
    match Operator.ofChar? c with
    | some op => some { kind := .operator op, length := 1, context := ctx }
    | none =>
      if isQuoteMark c then
        some { kind := .quote (c == '\''), length := 1,
               context := ctx.afterQuote c }
      else
        match BracketKind.ofChar? c with
        | some (kind, opens) =>
          some { kind := .bracket kind opens, length := 1,
                 context := ctx.afterBracket kind opens }
        | none => none
  | [] => none

/-- The token ahead: the first rule that takes something wins. -/
def lexeme? (ctx : Context) (before : Option Char) (offset : Nat)
    (cs : List Char) : Except AbbreviationError (Option Lexeme) :=
  match field? ctx offset cs with
  | .error e => .error e
  | .ok (some l) => .ok (some l)
  | .ok none =>
    .ok (textPlaceholder? ctx cs
      <|> number? ctx cs
      <|> repeater? ctx cs
      <|> blank? ctx cs
      <|> literal? ctx before cs
      <|> mark? ctx cs)

/-- The tokens of the characters ahead, which begin at `offset` behind the
character `before`. -/
def tokensFrom (ctx : Context) (before : Option Char) (offset : Nat)
    (cs : List Char) : Except AbbreviationError (List Token) :=
  if cs.isEmpty then .ok []
  else
    match lexeme? ctx before offset cs with
    | .error e => .error e
    | .ok none => .error (AbbreviationFault.strayCharacter.atOffset offset)
    | .ok (some l) =>
      match tokensFrom l.context (cs.take l.length).getLast? (offset + l.length)
          (cs.drop l.length) with
      | .error e => .error e
      | .ok tokens => .ok (⟨l.kind, offset, offset + l.length⟩ :: tokens)
termination_by cs.length
decreasing_by
  have := l.length_pos
  have : cs.length ≠ 0 := by simp_all
  simp only [List.length_drop]
  omega

end Scaffold.Lexer

namespace Scaffold

def tokenize (source : String) : Except AbbreviationError (List Token) :=
  Lexer.tokensFrom {} none 0 source.toList

end Scaffold

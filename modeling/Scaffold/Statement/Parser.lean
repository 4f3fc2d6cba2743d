import Scaffold.AbbreviationError
import Scaffold.Statement.Path
/-!
Reads statements from tokens. A name is followed by any mix of repeater, text,
shorthand attributes and attribute sets; `>` leads down into what was just read,
`+` stays, and each `^` climbs. The readers of the parts say how many tokens a
part takes; the walk over all tokens carries the path to the next statement's
place and the groups that are still open around it.
-/
namespace Scaffold.Statement.Parser

/-- The number of tokens in front of the brace that closes a text, which is
`depth` braces deep. -/
def textLength? (depth : Nat) : List Token → Option Nat
  | [] => none
  | t :: ts =>
    if t.isBracket .expression true then
      (textLength? (depth + 1) ts).map (· + 1)
    else if t.isBracket .expression false then
      match depth with
      | 0 => some 0
      | depth + 1 => (textLength? depth ts).map (· + 1)
    else (textLength? depth ts).map (· + 1)

/-- The number of tokens between the braces of the text ahead, if a text is
ahead. -/
def text? : List Token → Except AbbreviationError (Option Nat)
  | [] => .ok none
  | t :: ts =>
    if t.isBracket .expression true then
      match textLength? 0 ts with
      | some n => .ok (some n)
      | none => .error (AbbreviationFault.openText.atOffset t.start)
    else .ok none

/-- The number of tokens in front of the next quote of a kind. -/
def quotedLength? (single : Bool) : List Token → Option Nat
  | [] => none
  | t :: ts =>
    if t.isQuote single then some 0 else (quotedLength? single ts).map (· + 1)

/-- The number of tokens of the quoted value ahead, both quotes included; none
is ahead if the number is zero. -/
def quoted : List Token → Except AbbreviationError Nat
  | [] => .ok 0
  | t :: ts =>
    match t.kind with
    | .quote single =>
      match quotedLength? single ts with
      | some n => .ok (n + 2)
      | none => .error (AbbreviationFault.openQuote.atOffset t.start)
    | _ => .ok 0

/-- How many brackets of each kind are open within a literal. -/
structure Depths where
  group : Nat := 0
  attributes : Nat := 0
  expression : Nat := 0

namespace Depths

def get (d : Depths) : BracketKind → Nat
  | .group => d.group
  | .attributes => d.attributes
  | .expression => d.expression

def set (d : Depths) (kind : BracketKind) (n : Nat) : Depths :=
  match kind with
  | .group => { d with group := n }
  | .attributes => { d with attributes := n }
  | .expression => { d with expression := n }

end Depths

/-- The number of tokens of the unquoted value ahead. Within braces every token
belongs to it; else it ends before a quote, an operator, a blank or a repeater,
and before a bracket unless brackets are admitted and the bracket opens or
closes one of the value's own. -/
def literalLength (brackets : Bool) (d : Depths) : List Token → Nat
  | [] => 0
  | t :: ts =>
    if d.expression > 0 then
      match t.kind with
      | .bracket .expression true =>
        literalLength brackets (d.set .expression (d.expression + 1)) ts + 1
      | .bracket .expression false =>
        literalLength brackets (d.set .expression (d.expression - 1)) ts + 1
      | _ => literalLength brackets d ts + 1
    else
      match t.kind with
      | .quote _ | .operator _ | .blank _ | .repeater _ => 0
      | .bracket kind true =>
        if brackets then
          literalLength brackets (d.set kind (d.get kind + 1)) ts + 1
        else 0
      | .bracket kind false =>
        if brackets && d.get kind != 0 then
          literalLength brackets (d.set kind (d.get kind - 1)) ts + 1
        else 0
      | _ => literalLength brackets d ts + 1

/-- The number of tokens of a component name's parts behind the first, as in
`Menu.Item`. -/
def memberLength : List Token → Nat
  | dot :: part :: ts =>
    if dot.isOperator .className && part.isCapitalized then memberLength ts + 2
    else 0
  | _ => 0

/-- The number of tokens of the element name ahead. -/
def nameLength (jsx : Bool) (ts : List Token) : Nat :=
  let component :=
    match ts with
    | t :: rest => if jsx && t.isCapitalized then memberLength rest + 1 else 0
    | [] => 0
  component + ((ts.drop component).takeWhile Token.isNamePart).length

def attributeValue (ts : List Token) :
    Except AbbreviationError (Option (List Token) × Nat) := do
  let n ← quoted ts
  let n := if n = 0 then literalLength true {} ts else n
  return (if n = 0 then none else some (ts.take n), n)

/-- The attribute ahead in an attribute set, and its number of tokens. A quoted
text alone is a value without a name. -/
def attributeTokens? (ts : List Token) :
    Except AbbreviationError (Option (AttributeTokens × Nat)) := do
  let n ← quoted ts
  if n ≠ 0 then
    return some ({ value := some (ts.take n) }, n)
  let n := literalLength true {} ts
  if n = 0 then
    return none
  match ts.drop n with
  | t :: rest =>
    if t.isOperator .equal then
      let (value, m) ← attributeValue rest
      return some ({ name := some (ts.take n), value }, n + 1 + m)
    return some ({ name := some (ts.take n) }, n)
  | [] => return some ({ name := some (ts.take n) }, n)

/-- The attributes of the set that `opener` begins, and how many tokens they and
the closing bracket take. -/
def attributeSet (opener : Token) (ts : List Token) :
    Except AbbreviationError (List AttributeTokens × Nat) :=
  match ts with
  | [] => .error (AbbreviationFault.openAttributeSet.atOffset opener.start)
  | t :: rest =>
    match attributeTokens? (t :: rest) with
    | .error e => .error e
    | .ok (some (a, n)) =>
      match attributeSet opener (rest.drop (n - 1)) with
      | .error e => .error e
      | .ok (more, m) => .ok (a :: more, n + m)
    | .ok none =>
      if t.isBracket .attributes false then .ok ([], 1)
      else if t.isBlank then
        match attributeSet opener rest with
        | .error e => .error e
        | .ok (more, m) => .ok (more, m + 1)
      else .error ((AbbreviationFault.strayToken t.kindName).atOffset t.start)
termination_by ts.length
decreasing_by
  all_goals simp only [List.length_drop, List.length_cons]
  all_goals omega

def shorthandName? : Operator → Option String
  | .className => some "class"
  | .identifier => some "id"
  | _ => none

/-- The shorthand attribute ahead and its number of tokens. With component
syntax its value may be an expression in braces. -/
def shorthand? (jsx : Bool) :
    List Token → Except AbbreviationError (Option (AttributeTokens × Nat))
  | [] => .ok none
  | t :: ts =>
    match t.kind with
    | .operator op =>
      match shorthandName? op with
      | none => .ok none
      | some name => do
        let more := (ts.takeWhile (·.isOperator op)).length
        let rest := ts.drop more
        let plain : AttributeTokens :=
          { name := some [Token.implied name], multiple := more > 0 }
        match ← (if jsx then text? rest else .ok none) with
        | some n =>
          return some ({ plain with
            value := some ((rest.drop 1).take n), expression :=
              true }, more + n + 3)
        | none =>
          match literalLength false {} rest with
          | 0 => return some (plain, more + 1)
          | n =>
            return some ({ plain with value := some (rest.take n) },
              more + n + 1)
    | _ => .ok none

def repeater? : List Token → Option Repeater
  | t :: _ => t.repeater?
  | [] => none

/-- What ends an element: a closing slash, behind which the repeater may still
come. -/
def closing (e : ElementTokens) (t : Token) (ts : List Token) :
    ElementTokens × Nat :=
  if !e.isEmpty && t.isOperator .close then
    match if e.repeater.isNone then repeater? ts else none with
    | some r => ({ e with selfClosing := true, repeater := some r }, 2)
    | none => ({ e with selfClosing := true }, 1)
  else (e, 0)

/-- Reads on in an element of which `e` is known, and says how many tokens that
took. -/
def elementParts (jsx : Bool) (e : ElementTokens) (ts : List Token) :
    Except AbbreviationError (ElementTokens × Nat) :=
  match ts with
  | [] => .ok (e, 0)
  | t :: rest =>
    let after (e : ElementTokens) (n : Nat) :
        Except AbbreviationError (ElementTokens × Nat) :=
      match elementParts jsx e (rest.drop (n - 1)) with
      | .error fault => .error fault
      | .ok (e, m) => .ok (e, n + m)
    match t.repeater?, e.repeater.isNone && !e.isEmpty with
    | some r, true => after { e with repeater := some r } 1
    | _, _ =>
      match if e.value.isNone then text? (t :: rest) else .ok none with
      | .error fault => .error fault
      | .ok (some n) => after { e with value := some (rest.take n) } (n + 2)
      | .ok none =>
        match shorthand? jsx (t :: rest) with
        | .error fault => .error fault
        | .ok (some (a, n)) => after (e.addAttributes [a]) n
        | .ok none =>
          if t.isBracket .attributes true then
            match attributeSet t rest with
            | .error fault => .error fault
            | .ok (attributes, n) => after (e.addAttributes attributes) (n + 1)
          else .ok (closing e t rest)
termination_by ts.length
decreasing_by
  all_goals simp only [List.length_drop, List.length_cons]
  all_goals omega

def element? (jsx : Bool) (ts : List Token) :
    Except AbbreviationError (Option (ElementTokens × Nat)) :=
  let n := nameLength jsx ts
  let named : ElementTokens :=
    if n = 0 then {} else { name := some (ts.take n) }
  match elementParts jsx named (ts.drop n) with
  | .error e => .error e
  | .ok (e, m) => .ok (if e.isEmpty then none else some (e, n + m))

/-- Where the path leads behind a statement, and the number of operators that
say so. -/
def follow (path : Path) (s : Statement) : List Token → Path × Nat
  | [] => (path.attach s, 0)
  | t :: ts =>
    if t.isOperator .child then (path.descend s, 1)
    else if t.isOperator .sibling then (path.attach s, 1)
    else
      let levels := ((t :: ts).takeWhile (·.isOperator .climb)).length
      ((path.attach s).climbs levels, levels)

/-- A group whose closing bracket has not come yet, and the path that leads to
it. -/
structure OpenGroup where
  opener : Token
  path : Path

/-- Reads statements up to the end of the tokens, at the end of a path within
open groups, the innermost of which comes first. -/
def statementsFrom (jsx : Bool) (groups : List OpenGroup) (path : Path)
    (ts : List Token) : Except AbbreviationError (List Statement) :=
  match ts with
  | [] =>
    match groups with
    | [] => .ok path.close
    | g :: _ => .error (AbbreviationFault.openGroup.atOffset g.opener.start)
  | t :: rest =>
    match element? jsx (t :: rest) with
    | .error e => .error e
    | .ok (some (e, n)) =>
      let behind := rest.drop (n - 1)
      let (path, m) := follow path (.element e []) behind
      statementsFrom jsx groups path (behind.drop m)
    | .ok none =>
      if t.isBracket .group true then
        statementsFrom jsx (⟨t, path⟩ :: groups) {} rest
      else
        match groups, t.isBracket .group false with
        | g :: groups, true =>
          let r := repeater? rest
          let behind := rest.drop (if r.isSome then 1 else 0)
          let (path, m) := follow g.path (.group path.close r) behind
          statementsFrom jsx groups path (behind.drop m)
        | _, _ => .error (AbbreviationFault.strayCharacter.atOffset t.start)
termination_by ts.length
decreasing_by
  all_goals simp only [List.length_drop, List.length_cons]
  all_goals omega

end Scaffold.Statement.Parser

namespace Scaffold.Statement

/-- The statements that a list of tokens stands for. With component syntax,
names may have parts and shorthand attributes may have expressions. -/
def parse (jsx : Bool) (tokens : List Token) :
    Except AbbreviationError (List Statement) :=
  Parser.statementsFrom jsx [] {} tokens

end Scaffold.Statement

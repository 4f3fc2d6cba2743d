import Scaffold.Numeral
/-!
Floating-point numbers as decimal text: read to the nearest number, and written
with the fewest digits that read back.
-/
namespace Scaffold.Decimal

/-- The decimal exponents outside of which every number is infinite or zero. -/
def exponentLimit : Nat := 400

def ofScientific (digits : Nat) (exponent : Int) : Float :=
  let scale := exponent + (Numeral.digits digits).length
  if digits = 0 || scale < -exponentLimit then 0
  else if exponentLimit < scale then 1 / 0
  else Float.ofScientific digits (exponent < 0) exponent.natAbs

/-- The exponent that a text behind a number names. -/
def exponent? : List Char → Option Int
  | [] => some 0
  | mark :: cs =>
    if mark != 'e' && mark != 'E' then none
    else
      let (negative, digits) := match cs with
        | '-' :: ds => (true, ds)
        | '+' :: ds => (false, ds)
        | ds => (false, ds)
      if digits.isEmpty || !digits.all Char.isDigit then none
      else
        let n : Int := Numeral.digitsValue digits
        some (if negative then -n else n)

/-- The number without a sign that a text means: digits with a point among or
around them, and an exponent or none. -/
def ofUnsigned? (cs : List Char) : Option Float := do
  let whole := cs.takeWhile Char.isDigit
  let rest := cs.drop whole.length
  let fraction :=
    if rest.head? == some '.' then (rest.drop 1).takeWhile Char.isDigit else []
  let rest :=
    if rest.head? == some '.' then rest.drop (fraction.length + 1) else rest
  if whole.isEmpty && fraction.isEmpty then none
  else
    let exponent ← exponent? rest
    return ofScientific (Numeral.digitsValue (whole ++ fraction))
      (exponent - fraction.length)

/-- The number that a text means. -/
def ofChars? : List Char → Option Float
  | '-' :: cs => (ofUnsigned? cs).map (-·)
  | '+' :: cs => ofUnsigned? cs
  | cs => ofUnsigned? cs

/-! ### The fewest digits -/

/-- A positive number as a fraction, from its bits. -/
def fraction (x : Float) : Nat × Nat :=
  let bits := x.toBits.toNat % Nat.pow 2 63
  let exponent := bits / Nat.pow 2 52
  let digits := bits % Nat.pow 2 52
  let (m, e) : Nat × Nat :=
    if exponent = 0 then (digits, 1) else (digits + Nat.pow 2 52, exponent)
  if e ≤ 1075 then (m, Nat.pow 2 (1075 - e)) else (m * Nat.pow 2 (e - 1075), 1)

/-- How many tens a fraction below one has to be multiplied by to reach one. -/
def tensBelow (num den : Nat) : (limit : Nat) → Nat
  | 0 => 0
  | limit + 1 => if den ≤ num then 0 else tensBelow (num * 10) den limit + 1

/-- The exponent of the first digit of a fraction. -/
def magnitude (num den : Nat) : Int :=
  if den ≤ num then ((Numeral.digits (num / den)).length : Int) - 1
  else -(tensBelow num den exponentLimit : Int)

/-- The nearer one of the two decimals with a number of digits around `x` that
reads back. -/
def nearest? (x : Float) (num den : Nat) (top : Int) (count : Nat) :
    Option (Nat × Int) :=
  let k := top - count + 1
  let scale := Nat.pow 10 k.natAbs
  let (num, den) := if k < 0 then (num * scale, den) else (num, den * scale)
  let below := num / den
  let rest := num % den
  let readsBack (d : Nat) : Bool := ofScientific d k == x
  let preferAbove := den < 2 * rest || (den = 2 * rest && below % 2 = 1)
  match readsBack below, readsBack (below + 1) with
  | true, true => some (if preferAbove then below + 1 else below, k)
  | true, false => some (below, k)
  | false, true => some (below + 1, k)
  | false, false => none

/-- The digits of a positive number, as few as read back, and the exponent of
the last one. -/
def shortest (x : Float) : Nat × Int :=
  let (num, den) := fraction x
  let top := magnitude num den
  match (List.range 17).findSome? fun i => nearest? x num den top (i + 1) with
  | some (d, k) => if d % 10 = 0 then (d / 10, k + 1) else (d, k)
  | none => (0, 0)

/-- The greatest number of digits in front of the point. -/
def maxWhole : Nat := 16

/-- The greatest number of zeros behind the point and in front of the first
other digit. -/
def maxZeros : Nat := 4

def zeros (n : Nat) : List Char := List.replicate n '0'

/-- A positive number as text: with a point and a digit behind it, or with an
exponent if the point is far from the digits. -/
def positiveText (x : Float) : String :=
  let (d, k) := shortest x
  let digits := Numeral.digits d
  let point := k + digits.length
  if 0 ≤ k ∧ point ≤ maxWhole then
    String.ofList (digits ++ zeros k.toNat) ++ ".0"
  else if 0 < point ∧ point ≤ maxWhole then
    String.ofList (digits.take point.toNat) ++ "." ++
      String.ofList (digits.drop point.toNat)
  else if -maxZeros ≤ point ∧ point ≤ 0 then
    "0." ++ String.ofList (zeros (-point).toNat ++ digits)
  else
    let e := point - 1
    let exponent := (if e < 0 then "e-" else "e") ++ Numeral.text e.natAbs
    match digits with
    | [digit] => String.singleton digit ++ exponent
    | first :: more =>
      String.singleton first ++ "." ++ String.ofList more ++ exponent
    | [] => exponent

/-- A number as text. -/
def text (x : Float) : String :=
  if x.isNaN then ".nan"
  else
    let sign := if x.toBits.toNat < Nat.pow 2 63 then "" else "-"
    let size := x.abs
    if size.isInf then sign ++ ".inf"
    else if size == 0 then sign ++ "0.0"
    else sign ++ positiveText size

end Scaffold.Decimal

import Scaffold.Data
import Scaffold.Decimal
/-!
Texts in JavaScript object notation, read as data.
-/
namespace Scaffold.Json

/-- A blank between the parts of a value. -/
def isBlank (c : Char) : Bool := c == ' ' || c == '\t' || c == '\n' || c == '\r'

def dropBlanks (cs : List Char) : List Char := cs.dropWhile isBlank

theorem length_dropBlanks_le (cs : List Char) :
    (dropBlanks cs).length ≤ cs.length :=
  (List.dropWhile_sublist _).length_le

/-! ### Strings -/

/-- What an escape of one character means. -/
def escapes : List (Char × Char) :=
  [('"', '"'), ('\\', '\\'), ('/', '/'), ('b', '\x08'), ('f', '\x0c'),
    ('n', '\n'), ('r', '\r'), ('t', '\t')]

/-- The sixteen bits that the four digits at the beginning of a text name. -/
def unit? (cs : List Char) : Option Nat :=
  if cs.length < 4 then none else Data.natOfDigits? 16 (cs.take 4)

/-- The character that the text behind a backslash stands for, with the length
of that text. Two units that belong together are one character; one of them
alone is none. -/
def escape? (cs : List Char) : Option (Char × Nat) := do
  let mark ← cs.head?
  if mark != 'u' then (escapes.lookup mark).map (·, 1)
  else
    let high ← unit? (cs.drop 1)
    if high < 0xD800 || 0xE000 ≤ high then some (Char.ofNat high, 5)
    else if 0xDC00 ≤ high then none
    else
      match cs.drop 5 with
      | '\\' :: 'u' :: rest =>
        let low ← unit? rest
        if 0xDC00 ≤ low && low < 0xE000 then
          some (Char.ofNat (0x10000 + (high - 0xD800) * 0x400 + (low - 0xDC00)),
            11)
        else none
      | _ => none

/-- Reads a string behind its opening quote, in front of which `text` is read in
reverse. -/
def string? (text : List Char) (cs : List Char) : Option (String × List Char) :=
  match cs with
  | [] => none
  | '"' :: rest => some (String.ofList text.reverse, rest)
  | '\\' :: rest =>
    match escape? rest with
    | some (c, length) => string? (c :: text) (rest.drop length)
    | none => none
  | c :: rest => if c < ' ' then none else string? (c :: text) rest
termination_by cs.length
decreasing_by
  · simp only [List.length_drop, List.length_cons]; omega
  · simp

/-! ### Numbers -/

/-- The characters of digits that a number may start with: a zero alone, or
digits without a zero in front. -/
def wholeDigits? (cs : List Char) : Option (List Char) :=
  let digits := cs.takeWhile Char.isDigit
  if digits.isEmpty || (1 < digits.length && digits.head? == some '0') then none
  else some digits

/-- The part of a number behind a mark, which needs digits; nothing if the mark
is not there. -/
def digitsBehind? (isMark : Char → Bool) (cs : List Char) :
    Option (List Char) :=
  match cs with
  | mark :: rest =>
    if isMark mark then
      let sign := if mark != '.' &&
        rest.head?.any (fun c => c == '-' || c == '+') then 1 else 0
      let digits := (rest.drop sign).takeWhile Char.isDigit
      if digits.isEmpty then none else some (mark :: (rest.take sign ++ digits))
    else some []
  | [] => some []

/-- Reads a number. Whole numbers that no word holds are floating-point ones,
and one that is too large for those is infinite. -/
def number? (cs : List Char) : Option (Data × List Char) := do
  let negative := cs.head? == some '-'
  let unsigned := if negative then cs.drop 1 else cs
  let whole ← wholeDigits? unsigned
  let rest := unsigned.drop whole.length
  let fraction ← digitsBehind? (· == '.') rest
  let rest := rest.drop fraction.length
  let exponent ← digitsBehind? (fun c => c == 'e' || c == 'E') rest
  let rest := rest.drop exponent.length
  let n := Numeral.digitsValue whole
  if fraction.isEmpty && exponent.isEmpty &&
      (if negative then 0 < n && n ≤ Nat.pow 2 63 else n ≤ Numeral.wordMax) then
    return (.int (if negative then -n else n), rest)
  else
    let x ← Decimal.ofUnsigned? (whole ++ fraction ++ exponent)
    return (.float (if negative then -x else x), rest)

/-! ### Values -/

def names : List (List Char × Data) :=
  [("null".toList, .null), ("true".toList, .bool true),
    ("false".toList, .bool false)]

mutual

/-- Reads a value at the beginning of a text. -/
def value? (cs : List Char) : Option (Data × List Char) :=
  match cs with
  | '"' :: rest => (string? [] rest).map fun (s, rest) => (.text s, rest)
  | '[' :: rest =>
    if (dropBlanks rest).head? == some ']' then
      some (.list [], (dropBlanks rest).drop 1)
    else (items? rest).map fun (items, rest) => (.list items, rest)
  | '{' :: rest =>
    if (dropBlanks rest).head? == some '}' then
      some (.table [], (dropBlanks rest).drop 1)
    else (members? rest).map fun (members, rest) => (.table members, rest)
  | cs =>
    match names.find? fun (name, _) => name.isPrefixOf cs with
    | some (name, d) => some (d, cs.drop name.length)
    | none => number? cs
termination_by 2 * cs.length

def items? (cs : List Char) : Option (List Data × List Char) := do
  let (item, rest) ← value? (dropBlanks cs)
  match dropBlanks rest with
  | ',' :: rest =>
    if rest.length < cs.length then
      let (items, rest) ← items? rest
      return (item :: items, rest)
    else none
  | ']' :: rest => return ([item], rest)
  | _ => none
termination_by 2 * cs.length + 1
decreasing_by
  · have := length_dropBlanks_le cs; omega
  · omega

def members? (cs : List Char) : Option (List (Data × Data) × List Char) := do
  let (name, rest) ← match dropBlanks cs with
    | '"' :: rest => string? [] rest
    | _ => none
  let rest ← match dropBlanks rest with
    | ':' :: rest => some (dropBlanks rest)
    | _ => none
  if rest.length < cs.length then
    let (value, rest) ← value? rest
    match dropBlanks rest with
    | ',' :: rest =>
      if rest.length < cs.length then
        let (members, rest) ← members? rest
        return ((.text name, value) :: members, rest)
      else none
    | '}' :: rest => return ([(.text name, value)], rest)
    | _ => none
  else none
termination_by 2 * cs.length

end

/-- The value that a text is, with nothing but blanks around it. -/
def parse? (text : String) : Option Data := do
  let (d, rest) ← value? (dropBlanks text.toList)
  if (dropBlanks rest).isEmpty then some d else none

end Scaffold.Json

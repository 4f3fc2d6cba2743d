import Scaffold.Data
import Scaffold.Decimal
/-!
The keys and values of settings files with tables and assignments: strings of
four kinds, numbers, dates, lists and tables with braces.
-/
namespace Scaffold.Toml

/-- A blank inside of a line. -/
def isBlank (c : Char) : Bool := c == ' ' || c == '\t'

def dropBlanks (cs : List Char) : List Char := cs.dropWhile isBlank

/-- A character that may stand in a comment. -/
def isPrintable (c : Char) : Bool := c == '\t' || (' ' ≤ c && c != '\x7f')

/-- Steps over a line break. -/
def newline? : List Char → Option (List Char)
  | '\n' :: rest => some rest
  | '\r' :: '\n' :: rest => some rest
  | _ => none

/-- Steps over a comment, if there is one. -/
def dropComment (cs : List Char) : List Char :=
  if cs.head? == some '#' then cs.dropWhile isPrintable else cs

/-- Steps over the rest of a line that says no more. -/
def lineEnd? (cs : List Char) : Option (List Char) :=
  let rest := dropComment (dropBlanks cs)
  if rest.isEmpty then some [] else newline? rest

/-- Steps over blanks, comments and line breaks. -/
def dropGap (cs : List Char) : List Char :=
  let rest := dropComment (dropBlanks cs)
  match _h : newline? rest with
  | some next => if next.length < cs.length then dropGap next else next
  | none => rest
termination_by cs.length

/-! ### Strings -/

/-- What an escape of one character means. -/
def escapes : List (Char × Char) :=
  [('b', '\x08'), ('t', '\t'), ('n', '\n'), ('f', '\x0c'), ('r', '\r'),
    ('e', '\x1b'), ('"', '"'), ('\\', '\\')]

/-- The character that the text behind a backslash stands for, with the length
of that text. -/
def escape? (cs : List Char) : Option (Char × Nat) := do
  let mark ← cs.head?
  match escapes.lookup mark with
  | some c => some (c, 1)
  | none =>
    let count ← [('x', 2), ('u', 4), ('U', 8)].lookup mark
    let digits := (cs.drop 1).take count
    if digits.length < count then none
    else
      let n ← Data.natOfDigits? 16 digits
      if n.isValidChar then some (Char.ofNat n, count + 1) else none

/-- A character that an escaped line break takes with it. -/
def isGap (c : Char) : Bool := isBlank c || c == '\n' || c == '\r'

/-- What ends a string, and what is special in it. -/
structure Quoting where
  mark : Char
  /-- Whether the string can have several lines. -/
  multiline : Bool

/-- The number of marks that end a string with several lines. -/
def closingMarks : Nat := 3

/-- Reads a string behind its opening, in front of which `text` is read in
reverse. -/
def string? (q : Quoting) (text : List Char) (cs : List Char) :
    Option (String × List Char) :=
  match cs with
  | [] => none
  | c :: rest =>
    if c == q.mark then
      if !q.multiline then some (String.ofList text.reverse, rest)
      else
        let marks := 1 + (rest.takeWhile (· == q.mark)).length
        if marks < closingMarks then string? q (c :: text) rest
        else
          let more := min marks (closingMarks + 2) - closingMarks
          some (String.ofList (List.replicate more c ++ text).reverse,
            rest.drop (closingMarks + more - 1))
    else if c == '\\' && q.mark == '"' then
      match lineEnd? rest, q.multiline &&
        (dropBlanks rest).head? != some '#' with
      | some next, true =>
        if next.isEmpty then none
        else if (next.dropWhile isGap).length ≤ rest.length then
          string? q text (next.dropWhile isGap)
        else none
      | _, _ =>
        match escape? rest with
        | some (meant, length) => string? q (meant :: text) (rest.drop length)
        | none => none
    else if q.multiline && (c == '\n' || c == '\r') then
      match newline? cs with
      | some next =>
        if next.length ≤ rest.length then string? q ('\n' :: text) next
        else none
      | none => none
    else if isPrintable c then string? q (c :: text) rest
    else none
termination_by cs.length
decreasing_by
  all_goals simp only [List.length_drop, List.length_cons]
  all_goals omega

/-- Reads a string of any kind. -/
def quoted? (multiline : Bool) (cs : List Char) : Option (String × List Char) :=
  match cs with
  | '"' :: '"' :: '"' :: rest =>
    if multiline then string? ⟨'"', true⟩ [] ((newline? rest).getD rest)
    else none
  | '\'' :: '\'' :: '\'' :: rest =>
    if multiline then string? ⟨'\'', true⟩ [] ((newline? rest).getD rest)
    else none
  | '"' :: rest => string? ⟨'"', false⟩ [] rest
  | '\'' :: rest => string? ⟨'\'', false⟩ [] rest
  | _ => none

/-! ### Keys -/

/-- A character of keys without quotes. -/
def isKeyChar (c : Char) : Bool := c.isAlphanum || c == '-' || c == '_'

def keyPart? (cs : List Char) : Option (String × List Char) :=
  let bare := cs.takeWhile isKeyChar
  if bare.isEmpty then quoted? false cs
  else some (String.ofList bare, cs.drop bare.length)

/-- Reads the parts of a key, which have dots between them. -/
def key? (cs : List Char) : Option (List String × List Char) := do
  let (part, rest) ← keyPart? cs
  match dropBlanks rest with
  | '.' :: rest =>
    let rest := dropBlanks rest
    if rest.length < cs.length then
      let (parts, rest) ← key? rest
      return (part :: parts, rest)
    else none
  | rest => return ([part], rest)
termination_by cs.length

/-! ### Numbers and dates -/

/-- The digits of a number without the underscores between them. -/
def joinDigits? (isDigit : Char → Bool) (cs : List Char) : Option (List Char) :=
  let parts := Text.splitChars (· == '_') cs
  if parts.all fun part => !part.isEmpty && part.all isDigit then
    some parts.flatten
  else none

/-- Whether digits have a zero in front that means nothing. -/
def isPadded (digits : List Char) : Bool :=
  1 < digits.length && digits.head? == some '0'

/-- The whole number without a sign that a word means. -/
def whole? (cs : List Char) : Option Nat := do
  let digits ← joinDigits? Char.isDigit cs
  if isPadded digits then none else some (Numeral.digitsValue digits)

/-- The number with a mark of its base that a word means. -/
def based? (base : Nat) (cs : List Char) : Option Nat := do
  Data.natOfDigits? base
    (← joinDigits? (fun c => (Data.digit? base c).isSome) cs)

/-- The floating-point number without a sign that a word means. -/
def float? (cs : List Char) : Option Float := do
  if cs == "inf".toList then return 1 / 0
  if cs == "nan".toList then return 0 / 0
  let isMark (c : Char) : Bool := c == 'e' || c == 'E'
  let number := cs.takeWhile (!isMark ·)
  let exponent := cs.drop number.length
  let whole := number.takeWhile (· != '.')
  let fraction := number.drop whole.length
  let wholeDigits ← joinDigits? Char.isDigit whole
  if isPadded wholeDigits || (fraction.isEmpty && exponent.isEmpty) then none
  let fractionDigits ← if fraction.isEmpty then some [] else
    (joinDigits? Char.isDigit (fraction.drop 1)).map ('.' :: ·)
  let signed := (exponent.drop 1).head?.any fun c => c == '-' || c == '+'
  let sign := (exponent.drop 1).take (if signed then 1 else 0)
  let exponentDigits ← if exponent.isEmpty then some [] else
    (joinDigits? Char.isDigit (exponent.drop (1 + sign.length))).map
      ('e' :: sign ++ ·)
  Decimal.ofUnsigned? (wholeDigits ++ fractionDigits ++ exponentDigits)

/-- The number that a word means. -/
def number? (cs : List Char) : Option Data :=
  match cs with
  | '0' :: 'x' :: digits => (based? 16 digits).map (.int ·)
  | '0' :: 'o' :: digits => (based? 8 digits).map (.int ·)
  | '0' :: 'b' :: digits => (based? 2 digits).map (.int ·)
  | '-' :: rest =>
    ((whole? rest).map fun n => .int (-n)) <|>
      ((float? rest).map (.float <| - ·))
  | '+' :: rest => ((whole? rest).map (.int ·)) <|> ((float? rest).map .float)
  | rest => ((whole? rest).map (.int ·)) <|> ((float? rest).map .float)

/-- The number of two digits at a place, if it is in bounds. -/
def twoDigits? (cs : List Char) (least most : Nat) : Option Nat :=
  match cs with
  | a :: b :: _ =>
    let n := Numeral.digitsValue [a, b]
    if a.isDigit && b.isDigit && least ≤ n && n ≤ most then some n else none
  | _ => none

def daysOfMonth (year month : Nat) : Nat :=
  if month = 2 then
    if (year % 4 = 0 ∧ year % 100 ≠ 0) ∨ year % 400 = 0 then 29 else 28
  else if month ∈ [4, 6, 9, 11] then 30 else 31

/-- Steps over a date. -/
def date? (cs : List Char) : Option (List Char) := do
  let year := cs.take 4
  if !(year.length == 4 && year.all Char.isDigit) then none
  if cs[4]? != some '-' || cs[7]? != some '-' then none
  let month ← twoDigits? (cs.drop 5) 1 12
  let _ ← twoDigits? (cs.drop 8) 1
      (daysOfMonth (Numeral.digitsValue year) month)
  return cs.drop 10

/-- Steps over a time of day, of which the seconds and their fraction may be
missing. -/
def time? (cs : List Char) : Option (List Char) := do
  let _ ← twoDigits? cs 0 23
  if cs[2]? != some ':' then none
  let _ ← twoDigits? (cs.drop 3) 0 59
  match cs.drop 5 with
  | ':' :: rest =>
    let _ ← twoDigits? rest 0 60
    match rest.drop 2 with
    | '.' :: rest =>
      let digits := rest.takeWhile Char.isDigit
      if digits.isEmpty then none else some (rest.drop digits.length)
    | rest => some rest
  | rest => some rest

/-- Steps over the distance to universal time. -/
def zone? (cs : List Char) : Option (List Char) :=
  match cs with
  | 'Z' :: rest | 'z' :: rest => some rest
  | sign :: rest =>
    if sign == '+' || sign == '-' then do
      let _ ← twoDigits? rest 0 23
      if rest[2]? != some ':' then none
      let _ ← twoDigits? (rest.drop 3) 0 59
      return rest.drop 5
    else some cs
  | [] => some []

/-- The length of the date, the time or both at the beginning of a text. -/
def momentLength? (cs : List Char) : Option Nat :=
  let rest? := match date? cs with
    | some rest =>
      match rest with
      | mark :: next =>
        if mark == 'T' || mark == 't' then (time? next).bind zone?
        else if mark == ' ' && next.head?.any Char.isDigit then
          (time? next).bind zone?
        else some rest
      | [] => some []
    | none => time? cs
  rest?.map (cs.length - ·.length)

/-! ### Values -/

/-- A character of words: numbers, dates and names. -/
def isWordChar (c : Char) : Bool :=
  isKeyChar c || c == '+' || c == '.' || c == ':'

/-- Reads a word. A date or a time is a table of its own kind. -/
def word? (cs : List Char) : Option (Data × List Char) :=
  match momentLength? cs with
  | some n =>
    let rest := cs.drop n
    if rest.head?.any isWordChar then none
    else some
      (.table [(.text "moment", .text (String.ofList (cs.take n)))], rest)
  | none =>
    let word := cs.takeWhile isWordChar
    let rest := cs.drop word.length
    if word == "true".toList then some (.bool true, rest)
    else if word == "false".toList then some (.bool false, rest)
    else (number? word).map (·, rest)

/-- How a table came about, which decides what may still be added to it. -/
inductive Origin
  /-- By the header of a table inside it. -/
  | implied
  /-- By its own header. -/
  | header
  /-- By a key with dots. -/
  | dotted
  deriving DecidableEq, Repr

/-- What stands under a name. -/
inductive Entry
  | value (d : Data)
  | table (origin : Origin) (entries : List (String × Entry))
  /-- Tables with the same header, the last one first. -/
  | tables (elements : List (List (String × Entry)))

abbrev Entries := List (String × Entry)

namespace Entry

mutual

def toData : Entry → Data
  | value d => d
  | table _ entries => .table (dataOfEntries entries)
  | tables elements => .list (dataOfElements elements).reverse

def dataOfEntries : List (String × Entry) → List (Data × Data)
  | [] => []
  | (name, e) :: entries => (.text name, e.toData) :: dataOfEntries entries

def dataOfElements : List (List (String × Entry)) → List Data
  | [] => []
  | entries :: elements =>
    .table (dataOfEntries entries) :: dataOfElements elements

end

end Entry

namespace Entries

def put (entries : Entries) (name : String) (e : Entry) : Entries :=
  if entries.any (·.1 == name) then
    entries.map fun old => if old.1 == name then (name, e)
  else old
  else entries ++ [(name, e)]

/-- The entries with a value under a path of names. The tables on the way are
made unless they are there without a header of their own. -/
def assign (entries : Entries) (path : List String) (d : Data) :
    Option Entries :=
  match path with
  | [] => none
  | [name] =>
    if (entries.lookup name).isSome then none
    else some (entries.put name (.value d))
  | name :: path =>
    match entries.lookup name with
    | none => do return entries.put name (.table .dotted (← assign [] path d))
    | some (.table .header _) => none
    | some (.table origin inner) => do
      return entries.put name (.table origin (← assign inner path d))
    | some _ => none

/-- The entries with the table at a path changed. The tables on the way to the
last name are made if they are not there, and of several with the same header
the last one is meant. -/
def update (entries : Entries) (path : List String)
    (change : Option Entry → Option Entry) : Option Entries :=
  match path with
  | [] => none
  | [name] => do return entries.put name (← change (entries.lookup name))
  | name :: path =>
    match entries.lookup name with
    | none =>
      do return entries.put name (.table .implied (← update [] path change))
    | some (.table origin inner) => do
      return entries.put name (.table origin (← update inner path change))
    | some (.tables (last :: before)) => do
      return entries.put name (.tables ((← update last path change) :: before))
    | some _ => none

/-- Opens a table by its header. Only a table that came about by a header inside
it can be there already. -/
def openTable : Option Entry → Option Entry
  | none => some (.table .header [])
  | some (.table .implied inner) => some (.table .header inner)
  | some _ => none

/-- Opens a further table of those with the same header. -/
def openElement : Option Entry → Option Entry
  | none => some (.tables [[]])
  | some (.tables elements) => some (.tables ([] :: elements))
  | some _ => none

def assignIn (path : List String) (d : Data) : Option Entry → Option Entry
  | some (.table origin inner) =>
    do return .table origin (← assign inner path d)
  | some (.tables (last :: before)) =>
    do return .tables ((← assign last path d) :: before)
  | _ => none

end Entries

mutual

/-- Reads a value at the beginning of a text. -/
def value? (cs : List Char) : Option (Data × List Char) :=
  match cs with
  | '[' :: rest =>
    match dropGap rest with
    | ']' :: rest => some (.list [], rest)
    | _ => (items? rest).map fun (items, rest) => (.list items, rest)
  | '{' :: rest =>
    match dropGap rest with
    | '}' :: rest => some (.table [], rest)
    | _ => (members? [] rest).map fun (d, rest) => (d, rest)
  | c :: rest =>
    if c == '"' || c == '\'' then
      (quoted? true (c :: rest)).map fun (s, rest) => (.text s, rest)
    else word? (c :: rest)
  | [] => none
termination_by 2 * cs.length

/-- Reads the items of a list up to its end, between which there may be line
breaks. -/
def items? (cs : List Char) : Option (List Data × List Char) := do
  if (dropGap cs).length ≤ cs.length then
    let (item, rest) ← value? (dropGap cs)
    match dropGap rest with
    | ']' :: rest => return ([item], rest)
    | ',' :: rest =>
      match dropGap rest with
      | ']' :: rest => return ([item], rest)
      | _ =>
        if rest.length < cs.length then
          let (items, rest) ← items? rest
          return (item :: items, rest)
        else none
    | _ => none
  else none
termination_by 2 * cs.length + 1

def members? (entries : Entries) (cs : List Char) :
    Option (Data × List Char) := do
  let (path, rest) ← key? (dropGap cs)
  match dropBlanks rest with
  | '=' :: rest =>
    let rest := dropBlanks rest
    if rest.length < cs.length then
      let (d, rest) ← value? rest
      let entries ← entries.assign path d
      let table := (Entry.table .dotted entries).toData
      match dropGap rest with
      | '}' :: rest => return (table, rest)
      | ',' :: rest =>
        match dropGap rest with
        | '}' :: rest => return (table, rest)
        | _ => if rest.length < cs.length then members? entries rest else none
      | _ => none
    else none
  | _ => none
termination_by 2 * cs.length

end

end Scaffold.Toml

import Scaffold.Decimal
import Scaffold.Failure
import Scaffold.FileSystem
import Scaffold.Manifest
import Scaffold.Text.Blank
import Scaffold.Text.Lines
import Scaffold.Yaml.Document
/-!
Manifests from the text of a document. The parts that no component can do
without are checked first, so that the first component that lacks one is named.
-/
namespace Scaffold

/-! ### Data as a message shows them -/

namespace Data

/-- The digits of a code point in base sixteen. -/
def hexText (n : Nat) : String := String.ofList (Nat.toDigits 16 n)

/-- Code points that show nothing of their own. -/
def hiddenRanges : List (Nat × Nat) :=
  [(0x0, 0x1F), (0x7F, 0x9F), (0xAD, 0xAD), (0x300, 0x36F), (0x61C, 0x61C),
    (0x180E, 0x180E), (0x200B, 0x200F), (0x2028, 0x202E), (0x205F, 0x206F),
    (0x3000, 0x3000), (0xE000, 0xF8FF), (0xFE00, 0xFE0F), (0xFEFF, 0xFEFF),
    (0xFFF0, 0xFFFB)]

/-- A character between quotes. -/
def quotedChar (c : Char) : String :=
  match c with
  | '"' => "\\\""
  | '\\' => "\\\\"
  | '\n' => "\\n"
  | '\r' => "\\r"
  | '\t' => "\\t"
  | '\x00' => "\\0"
  | c =>
    if Text.inRanges hiddenRanges c then "\\u\x7b" ++ hexText c.toNat ++ "\x7d"
    else String.singleton c

/-- A text between quotes. -/
def quoted (s : String) : String :=
  "\"" ++ String.join (s.toList.map quotedChar) ++ "\""

/-- A truth value as text. -/
def boolText (b : Bool) : String := if b then "true" else "false"

/-- A whole number as text. -/
def intText (n : Int) : String :=
  (if n < 0 then "-" else "") ++ Numeral.text n.natAbs

mutual

/-- A value with the names of its parts. -/
def inspect : Data → String
  | null => "Null"
  | bool b => "Bool(" ++ boolText b ++ ")"
  | int n => "Number(" ++ intText n ++ ")"
  | float x => "Number(" ++ Decimal.text x ++ ")"
  | text s | word s => "String(" ++ quoted s ++ ")"
  | list items => "Sequence [" ++ Text.join ", " (inspectItems items) ++ "]"
  | table entries =>
    "Mapping \x7b" ++ Text.join ", " (inspectEntries entries) ++ "\x7d"
  | tagged tag d =>
    "TaggedValue \x7b tag: !" ++ tag ++ ", value: " ++ inspect d ++ " \x7d"

def inspectItems : List Data → List String
  | [] => []
  | d :: items => inspect d :: inspectItems items

/-- Entries, of which plain keys are shown bare. -/
def inspectEntries : List (Data × Data) → List String
  | [] => []
  | (k, v) :: entries =>
    ((match k with
      | bool b => boolText b
      | int n => intText n
      | float x => Decimal.text x
      | text s => quoted s
      | k => inspect k) ++ ": " ++ inspect v) :: inspectEntries entries

end

/-- A value as a message names it. -/
def display : Data → String
  | text s => s
  | int n => intText n
  | float x => Decimal.text x
  | bool b => boolText b
  | d => inspect d

def get? (name : String) (d : Data) : Option Data :=
  match d.untag with
  | table entries => (entries.find? fun (k, _) => match k with
    | text s => s == name
    | _ => false).map (·.2)
  | _ => none

/-- Whether a value says something: not nothing, an empty text or a plain no. -/
def isPresent : Data → Bool
  | null => false
  | text s => !s.isEmpty
  | bool b => b
  | _ => true

end Data

namespace Manifest

/-- What can be wrong with a manifest. -/
inductive Fault
  | empty
  | componentsNotList
  | noComponent
  | missingName (index : Nat)
  | missingDirectory (component : String)
  /-- The text is no document. -/
  | malformed (detail : String)
  /-- A part is not of the expected form. -/
  | unexpected
  deriving DecidableEq, Repr

/-- The wording of a fault. -/
def Fault.message : Fault → String
  | empty => "Document is empty"
  | componentsNotList => "\"components\" must be an array"
  | noComponent => "At least one component must be defined"
  | missingName index =>
    "Component at index " ++ Numeral.text index ++ " missing \"name\""
  | missingDirectory component =>
    "Component \"" ++ component ++ "\" missing output directory"
  | malformed detail => detail
  | unexpected => "the document does not hold a manifest"

/-! ### The check -/

/-- The fault of a component at an index, if it lacks a name or a directory. -/
def componentFault? (index : Nat) (d : Data) : Option Fault :=
  match (d.get? "name").filter (·.isPresent) with
  | none => some (.missingName index)
  | some name =>
    if (((d.get? "output").bind (·.get? "directory")).filter
      (·.isPresent)).isSome then none
    else some (.missingDirectory name.display)

/-- The fault of the first component that has one, where the first index is
given. -/
def componentsFault? (index : Nat) : List Data → Option Fault
  | [] => none
  | d :: ds => (componentFault? index d).or (componentsFault? (index + 1) ds)

/-- The first fault of a document, if it lacks what every manifest has. -/
def fault? : Data → Option Fault
  | .null => some .empty
  | d =>
    match d.get? "components" with
    | some (.list []) => some .noComponent
    | some (.list components) => componentsFault? 0 components
    | _ => some .componentsNotList

/-! ### The parts -/

/-- The value of a field that has to be there. -/
def required? {α : Type} (read : Data → Option α) (d : Option Data) :
    Option α := d.bind read

/-- The value of a field that may be missing or say nothing. -/
def optional? {α : Type} (read : Data → Option α) (d : Option Data) :
    Option (Option α) :=
  Data.field? (Data.asOption? read) none d

def several? {α : Type} (read : Data → Option α) (d : Option Data) :
    Option (List α) :=
  Data.field? (Data.asListOf? .values read) [] d

def record? (names : List String) (d : Data) : Option (List (Option Data)) :=
  d.asRecord? .values false names

def style? (d : Data) : Option Style := d.asChoice? .values Style.name Style.all

def language? (d : Data) : Option LanguageSetting :=
  d.asChoice? .values LanguageSetting.name LanguageSetting.all

def PropEntry.ofData? (d : Data) : Option PropEntry := do
  match ← record? ["name", "type", "required"] d with
  | [name, type, required] =>
    return ⟨← required? Data.asText? name, ← required? Data.asText? type,
      ← optional? Data.asBool? required⟩
  | _ => none

def Import.ofData? (d : Data) : Option Import := do
  match ← record? ["from", "import"] d with
  | [source, clause] =>
    return ⟨← required? Data.asText? source, ← required? Data.asText? clause⟩
  | _ => none

def Output.ofData? (d : Data) : Option Output := do
  match ← record? ["directory", "style"] d with
  | [directory, style] =>
    return ⟨← required? Data.asText? directory, ← optional? style? style⟩
  | _ => none

def Markup.ofData? (d : Data) : Option Markup := do
  match ← record? ["emmet", "jsx"] d with
  | [abbreviation, markup] =>
    return ⟨← optional? Data.asText? abbreviation,
      ← optional? Data.asText? markup⟩
  | _ => none

def effect? (d : Data) : Option Effect := do
  match ← record? ["trigger", "action"] d with
  | [trigger, action] =>
    return ⟨← required? Data.asText? trigger, ← required? Data.asText? action⟩
  | _ => none

/-- Reads what a component has beyond its markup: its effects. -/
def effects? (d : Data) : Option (List Effect) := do
  match ← record? ["effects"] d with
  | [effects] => several? effect? effects
  | _ => none

def Component.ofData? (d : Data) : Option Component := do
  match ← record? ["name", "type", "output", "props", "structure", "hooks",
      "custom", "imports"] d with
  | [name, language, output, props, markup, hooks, custom, imports] =>
    return {
      name := ← required? Data.asText? name
      language := ← Data.field? language? .auto language
      output := ← required? Output.ofData? output
      props := ← several? PropEntry.ofData? props
      markup := ← optional? Markup.ofData? markup
      hooks := ← several? Data.asText? hooks
      effects := (← optional? effects? custom).getD []
      imports := ← several? Import.ofData? imports }
  | _ => none

def Defaults.ofData? (d : Data) : Option Defaults := do
  match ← record? ["type", "style", "directory"] d with
  | [language, style, directory] =>
    return {
      language := ← Data.field? language? .auto language
      style := ← optional? style? style
      directory := ← optional? Data.asText? directory }
  | _ => none

def settings? (d : Data) : Option (Option Defaults) := do
  match ← record? ["defaults"] d with
  | [defaults] => optional? Defaults.ofData? defaults
  | _ => none

def ofData? (d : Data) : Option Manifest := do
  match ← record? ["components", "config"] d with
  | [components, settings] =>
    let components ← required? (Data.asListOf? .values Component.ofData?)
        components
    let settings ← optional? settings? settings
    return ⟨components, (settings.bind id).getD {}⟩
  | _ => none

def ofDocument (d : Data) : Except Fault Manifest :=
  match fault? d with
  | some fault => .error fault
  | none =>
    match ofData? d with
    | some m => .ok m
    | none => .error .unexpected

/-! ### Texts and files -/

/-- Whether a line says nothing: it is blank, a comment, or starts a
document. -/
def isSilent (line : String) : Bool :=
  let line := Text.trim line
  line.isEmpty || line.toList.head? == some '#' || line == "---"

def ofText (text : String) : Except Fault Manifest :=
  if (Text.feedLines text).all isSilent then .error .empty
  else
    match Yaml.values text with
    | .ok d => ofDocument d
    | .error fault => .error (.malformed fault.message)

def requestsOfText (text : String) (o : Overrides) :
    Except Failure (List Scaffold.Component.Request) :=
  match ofText text with
  | .ok m => .ok (m.requests o)
  | .error fault => .error (.invalidManifest fault.message)

variable {m : Type → Type} [Monad m] [FileSystem m]

def requestsOfFile (path : String) (o : Overrides) :
    m (Except Failure (List Scaffold.Component.Request)) := do
  match ← FileSystem.read path with
  | .ok text => return requestsOfText text o
  | .error fault =>
    return .error
      (.manifest ("Cannot read '" ++ path ++ "': " ++ fault.message))

end Manifest

end Scaffold

import Scaffold.Component
import Scaffold.Dialect
import Scaffold.Text.Split
/-!
The arguments of the command line. Options are read from left to right; what is
wrong with one of them is found before the next one is looked at, and only then
what is wrong with all together.
-/
namespace Scaffold.CommandLine

/-- The options without a value. -/
inductive Switch
  | preview
  | jsx
  | tsx
  | print
  | verbose
  | plain
  | help
  | version
  deriving DecidableEq, Repr

namespace Switch

def all : List Switch :=
  [preview, jsx, tsx, print, verbose, plain, help, version]

def longName : Switch → String
  | preview => "test"
  | jsx => "jsx"
  | tsx => "tsx"
  | print => "print"
  | verbose => "verbose"
  | plain => "no-color"
  | help => "help"
  | version => "version"

def letter? : Switch → Option Char
  | verbose => some 'v'
  | help => some 'h'
  | version => some 'V'
  | _ => none

end Switch

/-- The options with a value. -/
inductive Parameter
  | props
  | directory
  | style
  | abbreviation
  | manifest
  | only
  | template
  | dialect
  | config
  deriving DecidableEq, Repr

namespace Parameter

def all : List Parameter :=
  [props, directory, style, abbreviation, manifest, only, template,
    dialect, config]

def longName : Parameter → String
  | props => "props"
  | directory => "dir"
  | style => "style"
  | abbreviation => "emmet"
  | manifest => "from-yaml"
  | only => "only"
  | template => "template"
  | dialect => "syntax"
  | config => "config"

def letter? : Parameter → Option Char
  | props => some 'p'
  | directory => some 'd'
  | style => some 's'
  | abbreviation => some 'e'
  | config => some 'c'
  | _ => none

def isValueOptional (p : Parameter) : Bool := p = template

end Parameter

/-- What the arguments say. -/
structure Arguments where
  name : Option String := none
  props : Option String := none
  directory : Option String := none
  style : Option Style := none
  abbreviation : Option String := none
  manifest : Option String := none
  /-- The components to generate; nothing for all of them. -/
  only : List String := []
  /-- The example to write, with its path if one is given. -/
  template : Option (Option String) := none
  dialect : Option Dialect := none
  config : Option String := none
  preview : Bool := false
  jsx : Bool := false
  tsx : Bool := false
  print : Bool := false
  plain : Bool := false
  verbosity : Nat := 0
  deriving DecidableEq, Repr

/-- What can be wrong with arguments. -/
inductive Misuse
  | unknown (argument : String)
  | repeated (option : String)
  | missingValue (option : String)
  | unwantedValue (option : String)
  | badValue (option value : String)
  | conflict (option other : String)
  | missingOption (option : String)
  deriving DecidableEq, Repr

/-- The wording of a misuse. -/
def Misuse.message : Misuse → String
  | unknown argument => "unexpected argument '" ++ argument ++ "'"
  | repeated option => "'--" ++ option ++ "' cannot be used more than once"
  | missingValue option => "'--" ++ option ++ "' needs a value"
  | unwantedValue option => "'--" ++ option ++ "' takes no value"
  | badValue option value =>
    "'" ++ value ++ "' is not possible for '--" ++ option ++ "'"
  | conflict option other =>
    "'" ++ option ++ "' cannot be used with '" ++ other ++ "'"
  | missingOption option => "'--" ++ option ++ "' is missing"

/-- Why the arguments are not followed. -/
inductive Stop
  | help
  | version
  | misuse (m : Misuse)
  deriving DecidableEq, Repr

namespace Arguments

/-! ### One option -/

/-- The value of an option that is given for the first time. -/
def once {α : Type} (name : String) (old : Option α) (new : α) :
    Except Stop (Option α) :=
  if old.isSome then .error (.misuse (.repeated name)) else .ok (some new)

/-- The path that a value is, which is not empty. -/
def path (name value : String) : Except Stop String :=
  if value.isEmpty then .error (.misuse (.missingValue name)) else .ok value

/-- One of some alternatives by its exact name. -/
def choice {α : Type} (option : String) (name : α → String) (all : List α)
    (value : String) : Except Stop α :=
  match all.find? (name · == value) with
  | some x => .ok x
  | none => .error (.misuse (.badValue option value))

/-- The arguments with an option that has a value. -/
def set (a : Arguments) (p : Parameter) (value : String) :
    Except Stop Arguments := do
  let name := p.longName
  match p with
  | .props => return { a with props := ← once name a.props value }
  | .directory =>
    return { a with directory := ← once name a.directory (← path name value) }
  | .style =>
    return { a with
      style := ← once name a.style (← choice name Style.name Style.all value) }
  | .abbreviation =>
    return { a with abbreviation := ← once name a.abbreviation value }
  | .manifest =>
    return { a with manifest := ← once name a.manifest (← path name value) }
  | .only => return { a with only := a.only ++ Text.splitAt value ',' }
  | .template =>
    return { a with
      template := ← once name a.template (some (← path name value)) }
  | .dialect =>
    let dialect ← choice name Dialect.name Dialect.all value
    return { a with dialect := ← once name a.dialect dialect }
  | .config =>
    return { a with config := ← once name a.config (← path name value) }

/-- The arguments with an option that stands without its value. -/
def setWithoutValue (a : Arguments) (p : Parameter) :
    Except Stop Arguments := do
  if p.isValueOptional then
    return { a with template := ← once p.longName a.template none }
  else throw (.misuse (.missingValue p.longName))

/-- The arguments with a switch, which only `verbose` is twice. -/
def switch (a : Arguments) (s : Switch) : Except Stop Arguments :=
  let flag (old : Bool) (new : Arguments) : Except Stop Arguments :=
    if old then .error (.misuse (.repeated s.longName)) else .ok new
  match s with
  | .preview => flag a.preview { a with preview := true }
  | .jsx => flag a.jsx { a with jsx := true }
  | .tsx => flag a.tsx { a with tsx := true }
  | .print => flag a.print { a with print := true }
  | .plain => flag a.plain { a with plain := true }
  | .verbose => .ok { a with verbosity := a.verbosity + 1 }
  | .help => .error .help
  | .version => .error .version

/-- The arguments with the name of a component, of which there is one at
most. -/
def setName (a : Arguments) (name : String) : Except Stop Arguments :=
  if a.name.isSome then .error (.misuse (.unknown name))
  else .ok { a with name := some name }

/-! ### One argument -/

/-- Whether an argument can be the value of the option in front of it or a name:
it starts with no hyphen or is nothing else. -/
def isPlain (argument : String) : Bool :=
  argument == "-" || argument.toList.head? != some '-'

/-- What comes behind an argument. -/
inductive Expected
  | anything
  /-- The value of an option. -/
  | value (p : Parameter)

/-- Reads an option with a long name, which an equals sign ends if a value is
attached. -/
def readLong (a : Arguments) (cs : List Char) :
    Except Stop (Arguments × Expected) := do
  let nameChars := cs.takeWhile (· != '=')
  let name := String.ofList nameChars
  let attached := cs.drop nameChars.length
  let value :=
    if attached.isEmpty then none else some (String.ofList (attached.drop 1))
  match Parameter.all.find? (·.longName == name),
    Switch.all.find? (·.longName == name) with
  | some p, _ =>
    match value with
    | some value => return (← a.set p value, .anything)
    | none => return (a, .value p)
  | none, some s =>
    if value.isSome then throw (.misuse (.unwantedValue name))
    return (← a.switch s, .anything)
  | none, none => throw (.misuse (.unknown ("--" ++ name)))

/-- Reads letters of options. What follows the letter of one with a value is
that value, with an equals sign in front or not. -/
def readLetters (a : Arguments) : List Char → Except Stop (Arguments × Expected)
  | [] => .ok (a, .anything)
  | c :: cs =>
    match Parameter.all.find? (·.letter? == some c),
      Switch.all.find? (·.letter? == some c) with
    | some p, _ =>
      match cs with
      | [] => .ok (a, .value p)
      | '=' :: value => do return (← a.set p (String.ofList value), .anything)
      | value => do return (← a.set p (String.ofList value), .anything)
    | none, some s => do readLetters (← a.switch s) cs
    | none, none => .error (.misuse (.unknown (String.ofList ['-', c])))

def readOne (a : Arguments) (argument : String) :
    Except Stop (Arguments × Expected) :=
  if isPlain argument then do return (← a.setName argument, .anything)
  else
    match argument.toList with
    | '-' :: '-' :: cs => a.readLong cs
    | cs => a.readLetters (cs.drop 1)

/-- Reads arguments, the first of which can be the value of an option. Behind
two hyphens there are only names. -/
def readAll (a : Arguments) (expected : Expected) :
    List String → Except Stop Arguments
  | [] =>
    match expected with
    | .anything => .ok a
    | .value p => a.setWithoutValue p
  | argument :: rest => do
    match expected, isPlain argument with
    | .value p, true => readAll (← a.set p argument) .anything rest
    | expected, _ =>
      let a ← match expected with
        | .value p => a.setWithoutValue p
        | .anything => pure a
      if argument = "--" then rest.foldlM setName a
      else
        let (a, expected) ← a.readOne argument
        readAll a expected rest

/-! ### All together -/

/-- The pairs of options that exclude each other, with whether they are
given. -/
def conflicts (a : Arguments) : List ((String × Bool) × (String × Bool)) :=
  let name := ("NAME", a.name.isSome)
  let manifest := ("--from-yaml", a.manifest.isSome)
  let template := ("--template", a.template.isSome)
  let print := ("--print", a.print)
  [(("--jsx", a.jsx), ("--tsx", a.tsx)), (manifest, name), (manifest, template),
    (manifest, print), (template, name), (template, print), (print, name)]

/-- What is wrong with arguments that are fine one by one. A selection needs a
manifest, but where something excludes the manifest it does not matter. -/
def misuse? (a : Arguments) : Option Misuse :=
  match a.conflicts.find? fun (x, y) => x.2 && y.2 with
  | some (x, y) => some (.conflict x.1 y.1)
  | none =>
    if a.print && a.abbreviation.isNone then some (.missingOption "emmet")
    else if !a.only.isEmpty && a.manifest.isNone && a.name.isNone &&
      a.template.isNone &&
        !a.print then
      some (.missingOption "from-yaml")
    else none

def ofList (arguments : List String) : Except Stop Arguments := do
  let a ← readAll {} .anything arguments
  match a.misuse? with
  | some m => throw (.misuse m)
  | none => return a

end Arguments

end Scaffold.CommandLine

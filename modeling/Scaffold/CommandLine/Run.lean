import Scaffold.CommandLine.Arguments
import Scaffold.Component.Batch
import Scaffold.Manifest.Reading
import Scaffold.Manifest.Template
import Scaffold.Project.Loading
/-!
What the program does with its arguments: it prints an expansion, writes an
example manifest, or generates one component or those of a manifest, and reports
on it.
-/
namespace Scaffold.CommandLine

def version : String := "0.3.0"

/-- What a run depends on besides its arguments and files. -/
structure Surroundings where
  /-- Whether the terminal shows colors. -/
  colored : Bool := false
  /-- Where placeholder text starts if the project does not say. -/
  seed : UInt64 := 0

/-- What a run writes out, and how it ends. -/
structure Report where
  exitCode : Nat := 0
  output : String := ""
  errors : String := ""
  deriving DecidableEq, Repr

/-! ### Colors -/

/-- The codes of emphasis on a terminal. -/
inductive Emphasis
  | bold
  | green
  | red
  | yellow
  | boldGreen
  | boldRed
  deriving DecidableEq, Repr

def Emphasis.code : Emphasis → String
  | bold => "1"
  | green => "32"
  | red => "31"
  | yellow => "33"
  | boldGreen => "1;32"
  | boldRed => "1;31"

def Emphasis.start (e : Emphasis) : String := "\x1b[" ++ e.code ++ "m"

def Emphasis.stop : String := "\x1b[0m"

/-- A text with an emphasis, if colors are shown. It goes on behind an end of
emphasis in the text. -/
def paint (colored : Bool) (e : Emphasis) (text : String) : String :=
  if colored then e.start ++ text.replace Emphasis.stop
    (Emphasis.stop ++ e.start) ++ Emphasis.stop
  else text

/-- The lines that name written files. -/
def createdLines (colored : Bool) (paths : List String) : String :=
  String.join (paths.map fun path =>
    paint colored .green "Created:" ++ " " ++ path ++ "\n")

/-- What is said of a failure, for an abbreviation with the place in it. -/
def failureText (colored : Bool) (f : Failure) : String :=
  paint colored .boldRed "Error:" ++ " " ++ f.message ++ "\n" ++
  match f with
  | .abbreviation cause input =>
    paint colored .yellow (cause.annotate input) ++ "\n"
  | _ => ""

def failed (colored : Bool) (output : String) (f : Failure) : Report :=
  ⟨1, output, failureText colored f⟩

/-- The summary of a run over many components. -/
def summary (colored : Bool) (r : Component.BatchReport) : String :=
  "\n" ++ paint colored .bold "Summary:" ++ "\n" ++
  "  Generated: " ++ paint colored .green
    (Numeral.text r.generated.length) ++ "\n" ++
  "  Files written: " ++ Numeral.text r.written.length ++ "\n" ++
  (if r.failures.isEmpty then ""
    else "  Failed: " ++
      paint colored .red (Numeral.text r.failures.length) ++ "\n") ++
  String.join (r.failures.map fun (name, f) =>
    "    " ++ paint colored .red "✘" ++ " " ++ paint colored .bold name ++
      ": " ++ f.message ++ "\n")

/-! ### Commands -/

/-- The configuration of a dialect under a project. -/
def configFor (s : Surroundings) (p : Project) (d : Dialect) : Config :=
  let c := p.config (Config.ofDialect d)
  { c with drawnSeed := s.seed }

/-- The request for the component that the arguments name, where `typed` is the
command line. -/
def Arguments.request (a : Arguments) (typed : String)
    (defaults : ProjectDefaults) : Component.Request where
  name := a.name.getD ""
  props := a.props.getD ""
  directory := (a.directory.or defaults.directory).getD "."
  style := (a.style.or defaults.style).getD .css
  source := .abbreviation (a.abbreviation.getD "")
  language := .choose a.jsx a.tsx (defaults.language.getD .auto)
  command := some ("mkcomp " ++ typed)

def printExpansion (s : Surroundings) (colored : Bool) (a : Arguments)
    (p : Project) : Report :=
  let source := a.abbreviation.getD ""
  match expand (configFor s p (a.dialect.getD .html)) source with
  | .ok e => ⟨0, e.result ++ "\n", ""⟩
  | .error e => failed colored "" (.abbreviation e source)

variable {m : Type → Type} [Monad m] [FileSystem m]

/-- Writes the example manifest. -/
def writeTemplate (colored : Bool) (path : Option String) : m Report := do
  let path := path.getD Manifest.Template.defaultPath
  match ← Manifest.Template.write path Manifest.Template.full with
  | .error f => return failed colored "" f
  | .ok _ =>
    return ⟨0, createdLines colored [path] ++
      "Edit the file, then run: mkcomp --from-yaml " ++ path ++ "\n", ""⟩

/-- Generates the component that the arguments name. -/
def generateOne (s : Surroundings) (colored : Bool) (a : Arguments)
    (typed : String) (p : Project) : m Report := do
  let r := a.request typed p.defaults
  match r.render (configFor s p .jsx) with
  | .error f => return failed colored "" f
  | .ok rendering =>
    if a.preview then return ⟨0, Component.File.preview rendering.files, ""⟩
    let report ← Component.writeFiles r.directory rendering.files
    let created := createdLines colored report.written
    return match report.failed with
      | [] =>
        let mark := paint colored .boldGreen "✔"
        ⟨0, created ++ mark ++ " Component " ++ r.name ++ " generated\n", ""⟩
      | (path, fault) :: _ => failed colored created (.file path fault.message)

def someFailed (failures all : Nat) : Failure :=
  .validation (Numeral.text failures ++ " of " ++ Numeral.text all ++
    " component(s) failed")

/-- Generates the components of a manifest, or those of them that the arguments
name. -/
def generateFrom (s : Surroundings) (colored : Bool) (a : Arguments)
    (manifest : String) (p : Project) : m Report := do
  match ← Manifest.requestsOfFile manifest ⟨a.directory, p.defaults⟩ with
  | .error f => return failed colored "" f
  | .ok all =>
    let requests := if a.only.isEmpty then all else Manifest.select a.only all
    if a.preview then return ⟨0, Component.Request.preview requests, ""⟩
    let report ← Component.generateAll (configFor s p .jsx) requests
    let output := createdLines colored report.written ++ summary colored report
    return if report.failures.isEmpty then ⟨0, output, ""⟩
      else failed colored output
        (someFailed report.failures.length requests.length)

/-- Does what the arguments ask for. -/
def perform (s : Surroundings) (a : Arguments) (typed : String) : m Report := do
  let colored := s.colored && !a.plain
  match a.template with
  | some path => writeTemplate colored path
  | none =>
    match ← Project.load a.config "." with
    | .error f => return failed colored "" f
    | .ok p =>
      if a.print then return printExpansion s colored a p
      match a.manifest with
      | some manifest => generateFrom s colored a manifest p
      | none => generateOne s colored a typed p

/-! ### The program -/

/-- How the program is called. -/
def usage : String :=
  "Usage: mkcomp [OPTIONS] [NAME]\n\nOptions:\n" ++
  String.join (Parameter.all.map fun p =>
    "  --" ++ p.longName ++ " <VALUE>\n") ++
  String.join (Switch.all.map fun s => "  --" ++ s.longName ++ "\n")

/-- Runs the program with its arguments. -/
def run (s : Surroundings) (arguments : List String) : m Report :=
  match Arguments.ofList arguments with
  | .ok a => perform s a (Text.join " " arguments)
  | .error .version => return ⟨0, "mkcomp " ++ version ++ "\n", ""⟩
  | .error .help => return ⟨0, usage, ""⟩
  | .error (.misuse m) => return ⟨2, "", "error: " ++ m.message ++ "\n"⟩

end Scaffold.CommandLine

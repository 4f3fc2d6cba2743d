import Scaffold.CommandLine.Run
/-!
The program over the disk and the terminal.
-/
namespace Scaffold

/-- The fault with a number of the operating system. -/
def faultOfNumber (number : UInt32) (text : String) : FileFault :=
  match number with
  | 2 => .notFound
  | 17 => .alreadyExists
  | 20 => .notDirectory
  | 21 => .isDirectory
  | 36 => .nameTooLong
  | n => .other (text ++ " (os error " ++ Numeral.text n.toNat ++ ")")

/-- The fault that an error of the operating system stands for. -/
def faultOfError : IO.Error → FileFault
  | .otherError n t | .resourceBusy n t | .resourceVanished n t |
    .unsupportedOperation n t
  | .hardwareFault n t | .unsatisfiedConstraints n t | .illegalOperation n t
  | .protocolError n t | .timeExpired n t => faultOfNumber n t
  | .alreadyExists _ n t | .interrupted _ n t | .noFileOrDirectory _ n t
  | .invalidArgument _ n t | .permissionDenied _ n t | .resourceExhausted _ n t
  | .inappropriateType _ n t | .noSuchThing _ n t => faultOfNumber n t
  | .unexpectedEof => .other "unexpected end of file"
  | .userError text => .other text

/-- What an action on files yields. -/
def attempt {α : Type} (act : IO α) : IO (Except FileFault α) := do
  match ← act.toBaseIO with
  | .ok x => return .ok x
  | .error e => return .error (faultOfError e)

/-- A place and those above it, the nearest first. -/
def pathsUpward (path : String) : List String :=
  let steps := Path.steps path
  (List.range (steps.length + 1)).map fun n =>
    "/" ++ Text.join "/" (steps.take (steps.length - n))

instance : FileSystem IO where
  read path := do
    match ← attempt (IO.FS.readBinFile path) with
    | .error fault => return .error fault
    | .ok bytes =>
      return match String.fromUTF8? bytes with
        | some text => .ok text
        | none => .error (.other "stream did not contain valid UTF-8")
  write path content := attempt (IO.FS.writeFile path content)
  create path content := attempt do
    let handle ← IO.FS.Handle.mk path .writeNew
    handle.putStr content
  makeDirectories path := attempt (IO.FS.createDirAll path)
  isFile path := do return (← attempt (IO.FS.readBinFile path)).isOk
  isPresent path := do return (← attempt (IO.FS.realPath path)).isOk
  placesUpward path := attempt do
    return pathsUpward (toString (← IO.FS.realPath path))

end Scaffold

def main (arguments : List String) : IO UInt32 := do
  let colored := (← IO.getEnv "NO_COLOR").isNone
  let seed ← IO.rand 0 (Nat.pow 2 62)
  let report ← Scaffold.CommandLine.run (m := IO) ⟨colored,
      seed.toUInt64⟩ arguments
  IO.print report.output
  IO.eprint report.errors
  return report.exitCode.toUInt32

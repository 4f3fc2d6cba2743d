import Scaffold.Component
import Scaffold.Component.Props
import Scaffold.Text.Lines
/-!
The source of a component file: its imports, the declaration of its props, and
the function that returns its markup.
-/
namespace Scaffold.Component

/-- What generated files say in front of the command that they come from. -/
def generatedBy (command : String) : String :=
  "Generated by mkcomp: " ++ command

namespace Source

/-- The hooks to import, each once; effects need a hook of their own. -/
def hooks (r : Request) : List String :=
  let wanted := r.hooks.eraseDups
  if r.effects.isEmpty || wanted.contains "useEffect" then wanted
  else wanted ++ ["useEffect"]

/-- The lines in front of the component. -/
def importLines (r : Request) : List String :=
  let hooks := hooks r
  (match r.command with
    | some command => ["// " ++ generatedBy command]
    | none => []) ++
  [if hooks.isEmpty then "import React from 'react';"
    else "import React, \x7b " ++ Text.join ", " hooks ++
    " \x7d from 'react';"] ++
  (match r.language with
    | .jsx => ["import PropTypes from 'prop-types';"]
    | .tsx => []) ++
  r.imports ++
  (if r.style.hasStylesheet then
    ["import './" ++ r.name ++ "." ++ r.style.name ++ "';"] else [])

def imports (r : Request) : String := Text.join "\n" (importLines r)

/-- The statement that runs an effect. Its action loses the blanks around it and
the semicolons behind it, of which there is one again. -/
def effect (e : Effect) : String :=
  let action := (Text.trim e.action).toList.reverse.dropWhile (· == ';')
  "  useEffect(() => \x7b\n    " ++ String.ofList action.reverse ++
    ";\n  \x7d, [" ++ e.trigger ++ "]);\n\n"

/-- A line of markup at its place in the function; blank lines are left
empty. -/
def markupLine (line : String) : String :=
  if (Text.trim line).isEmpty then "\n" else "    " ++ line ++ "\n"

/-- The component itself, from the declaration of its props to its export. -/
def component (r : Request) (markup : String) : String :=
  let props := PropDefinition.ofEntries r.props
  let hasProps := !props.isEmpty
  let (declaration, signature, checks) := match hasProps, r.language with
    | true, .tsx =>
      (propsInterface r.name props ++ "\n\n",
        "(props: " ++ r.name ++ "Props)", "")
    | true, .jsx => ("", "(props)", "\n\n" ++ propsChecks r.name props)
    | false, _ => ("", "()", "")
  declaration ++ "const " ++ r.name ++ " = " ++ signature ++ " => \x7b\n" ++
    String.join (r.effects.map effect) ++ "  return (\n" ++
    String.join ((Text.feedLines markup).map markupLine) ++
      "  );\n\x7d;" ++ checks ++
    "\n\nexport default " ++ r.name ++ ";"

/-- The whole file. -/
def text (r : Request) (markup : String) : String :=
  imports r ++ "\n\n" ++ component r markup

end Source

end Scaffold.Component

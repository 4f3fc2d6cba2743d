import Scaffold.Component.Selectors
import Scaffold.Component.Source
/-!
Stylesheets with one empty rule for each selector.
-/
namespace Scaffold.Component.Stylesheet

def comment? : Style → Option (String → String)
  | .css => some fun text => "/* " ++ text ++ " */"
  | .scss => some fun text => "// " ++ text
  | .tailwind | .styled | .unstyled => none

/-- An empty rule that invites to fill it. -/
def rule (comment : String → String) (selector : String) : String :=
  "\n" ++ selector ++ " \x7b\n  " ++ comment "Add your styles here" ++
    "\n\x7d\n"

/-- The stylesheet for selectors; nothing for a style without one. -/
def text (style : Style) (command : Option String) (selectors : Selectors) :
    String :=
  match comment? style with
  | none => ""
  | some comment =>
    (match command with
      | some command => comment (generatedBy command) ++ "\n"
      | none => "") ++
    comment "Generated styles" ++ "\n" ++
    String.join ((selectors.classes.map ("." ++ ·) ++
      selectors.ids.map ("#" ++ ·)).map (rule comment))

end Scaffold.Component.Stylesheet

import Scaffold.Component
import Scaffold.Config
import Scaffold.Data
/-!
What a project sets for all its components, read from its settings file.
-/
namespace Scaffold

/-- What components are unless their requests say otherwise. -/
structure ProjectDefaults where
  language : Option LanguageSetting := none
  style : Option Style := none
  directory : Option String := none
  deriving DecidableEq, Repr

namespace ProjectDefaults

/-- Reads defaults from a record. -/
def ofData? (f : Data.Format) (d : Data) : Option ProjectDefaults := do
  match ← d.asRecord? f false ["type", "style", "directory"] with
  | [language, style, directory] =>
    let setting := Data.asChoice? f LanguageSetting.name LanguageSetting.all
    return {
      language := ← Data.field? (Data.asOption? setting) none language
      style := ← Data.field?
        (Data.asOption? (Data.asChoice? f Style.name Style.all)) none style
      directory := ← Data.field? (Data.asOption? Data.asText?) none directory }
  | _ => none

end ProjectDefaults

/-- How the markup of components is expanded, as far as a project sets it. -/
structure ExpansionSettings where
  indent : Option String := none
  selfClosing : Option SelfClosing := none
  attributeQuotes : Option QuoteStyle := none
  compactBoolean : Option Bool := none
  inlineBreak : Option Nat := none
  maxRepeat : Option Nat := none
  bem : Option Bool := none
  loremSeed : Option Nat := none
  deriving DecidableEq, Repr

namespace ExpansionSettings

def fieldNames : List String :=
  ["indent", "selfClosingStyle", "attributeQuotes", "compactBoolean",
    "inlineBreak", "maxRepeat", "bem", "loremSeed"]

/-- Reads settings from a record. -/
def ofData? (f : Data.Format) (d : Data) : Option ExpansionSettings := do
  match ← d.asRecord? f false fieldNames with
  | [indent, selfClosing, attributeQuotes, compactBoolean, inlineBreak,
    maxRepeat, bem,
      loremSeed] =>
    let closing := Data.asChoice? f SelfClosing.name SelfClosing.all
    let quotes := Data.asChoice? f QuoteStyle.name QuoteStyle.all
    return {
      indent := ← Data.field? (Data.asOption? Data.asText?) none indent
      selfClosing := ← Data.field? (Data.asOption? closing) none selfClosing
      attributeQuotes :=
        ← Data.field? (Data.asOption? quotes) none attributeQuotes
      compactBoolean :=
        ← Data.field? (Data.asOption? Data.asBool?) none compactBoolean
      inlineBreak :=
        ← Data.field? (Data.asOption? Data.asCount?) none inlineBreak
      maxRepeat := ← Data.field? (Data.asOption? Data.asCount?) none maxRepeat
      bem := ← Data.field? (Data.asOption? Data.asBool?) none bem
      loremSeed := ← Data.field? (Data.asOption? Data.asCount?) none loremSeed }
  | _ => none

/-- A configuration with the settings of a project laid over it. -/
def apply (s : ExpansionSettings) (c : Config) : Config :=
  { c with
    options := { c.options with
      indent := s.indent.getD c.options.indent
      selfClosing := s.selfClosing.getD c.options.selfClosing
      attributeQuotes := s.attributeQuotes.getD c.options.attributeQuotes
      compactBoolean := s.compactBoolean.getD c.options.compactBoolean
      inlineBreak := s.inlineBreak.getD c.options.inlineBreak
      bem := { c.options.bem with
        enabled := s.bem.getD c.options.bem.enabled } }
    maxRepeat := s.maxRepeat.getD c.maxRepeat
    loremSeed := (s.loremSeed.map Nat.toUInt64).or c.loremSeed }

end ExpansionSettings

/-- The settings of a project, of which each part may be missing. -/
structure Project where
  defaults? : Option ProjectDefaults := none
  expansion? : Option ExpansionSettings := none
  deriving DecidableEq, Repr

namespace Project

def defaults (p : Project) : ProjectDefaults := p.defaults?.getD {}

/-- A configuration with the settings of the project laid over it. -/
def config (p : Project) (c : Config) : Config :=
  match p.expansion? with
  | some s => s.apply c
  | none => c

def ofData? (f : Data.Format) (d : Data) : Option Project := do
  match ← d.asRecord? f false ["defaults", "expand"] with
  | [defaults, expansion] =>
    return {
      defaults? :=
        ← Data.field? (Data.asOption? (ProjectDefaults.ofData? f)) none defaults
      expansion? := ← Data.field? (Data.asOption? (ExpansionSettings.ofData? f))
        none expansion }
  | _ => none

end Project

end Scaffold

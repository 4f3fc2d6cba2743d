import Scaffold.Data
import Scaffold.Options
/-!
Options as data: read from a record in which every field may be missing, and
written back in full.
-/
namespace Scaffold

namespace BemOptions

/-- Reads the options from a record of `enabled`, `element` and `modifier`. -/
def ofData? (f : Data.Format) (d : Data) : Option BemOptions := do
  match ← d.asRecord? f true ["enabled", "element", "modifier"] with
  | [enabled, element, modifier] =>
    let fallback : BemOptions := {}
    return {
      enabled := ← Data.field? Data.asBool? fallback.enabled enabled
      element := ← Data.field? Data.asText? fallback.element element
      modifier := ← Data.field? Data.asText? fallback.modifier modifier }
  | _ => none

end BemOptions

namespace Options

def fieldNames : List String :=
  ["indent", "baseIndent", "newline", "tagCase", "attributeCase",
    "attributeQuotes", "selfClosingStyle", "format", "formatSkip",
    "formatForce", "formatLeafNode", "inlineBreak", "compactBoolean",
    "booleanAttributes", "reverseAttributes", "inlineElements", "href", "jsx",
    "jsxAttributeNames", "jsxValuePrefix", "bem"]

/-- Reads options from a record; fields that are not there have their
defaults. -/
def ofData? (f : Data.Format) (d : Data) : Option Options := do
  match ← d.asRecord? f true fieldNames with
  | [indent, baseIndent, newline, tagCase, attributeCase, attributeQuotes,
    selfClosing, format, formatSkip, formatForce, formatLeafNode, inlineBreak,
    compactBoolean, booleanAttributes,
      reverseAttributes, inlineElements, href, jsx, jsxAttributeNames,
        jsxValuePrefix, bem] =>
    let fallback : Options := {}
    let names := Data.asListOf? f Data.asText?
    let letterCase := Data.asChoice? f LetterCase.name LetterCase.all
    return {
      indent := ← Data.field? Data.asText? fallback.indent indent
      baseIndent := ← Data.field? Data.asText? fallback.baseIndent baseIndent
      newline := ← Data.field? Data.asText? fallback.newline newline
      tagCase := ← Data.field? letterCase fallback.tagCase tagCase
      attributeCase :=
        ← Data.field? letterCase fallback.attributeCase attributeCase
      attributeQuotes :=
        ← Data.field? (Data.asChoice? f QuoteStyle.name QuoteStyle.all)
          fallback.attributeQuotes attributeQuotes
      selfClosing :=
        ← Data.field? (Data.asChoice? f SelfClosing.name SelfClosing.all)
          fallback.selfClosing selfClosing
      format := ← Data.field? Data.asBool? fallback.format format
      formatSkip := ← Data.field? names fallback.formatSkip formatSkip
      formatForce := ← Data.field? names fallback.formatForce formatForce
      formatLeafNode :=
        ← Data.field? Data.asBool? fallback.formatLeafNode formatLeafNode
      inlineBreak :=
        ← Data.field? Data.asCount? fallback.inlineBreak inlineBreak
      compactBoolean :=
        ← Data.field? Data.asBool? fallback.compactBoolean compactBoolean
      booleanAttributes :=
        ← Data.field? names fallback.booleanAttributes booleanAttributes
      reverseAttributes :=
        ← Data.field? Data.asBool? fallback.reverseAttributes reverseAttributes
      inlineElements :=
        ← Data.field? names fallback.inlineElements inlineElements
      href := ← Data.field? Data.asBool? fallback.href href
      jsx := ← Data.field? Data.asBool? fallback.jsx jsx
      jsxAttributeNames :=
        ← Data.field? (Data.asTextMap? f) fallback.jsxAttributeNames
          jsxAttributeNames
      jsxValuePrefix :=
        ← Data.field? (Data.asTextMap? f) fallback.jsxValuePrefix jsxValuePrefix
      bem := ← Data.field? (BemOptions.ofData? f) fallback.bem bem }
  | _ => none

/-- Options as a record of all fields. -/
def toData (o : Options) : Data :=
  let names (ns : List String) : Data := .list (ns.map .text)
  let map (m : List (String × String)) : Data :=
    .table (m.map fun (k, v) => (.text k, .text v))
  let values : List Data :=
    [.text o.indent, .text o.baseIndent, .text o.newline, .text o.tagCase.name,
      .text o.attributeCase.name, .text o.attributeQuotes.name,
      .text o.selfClosing.name, .bool o.format, names o.formatSkip,
      names o.formatForce, .bool o.formatLeafNode, .int o.inlineBreak,
      .bool o.compactBoolean, names o.booleanAttributes,
      .bool o.reverseAttributes, names o.inlineElements, .bool o.href,
      .bool o.jsx, map o.jsxAttributeNames, map o.jsxValuePrefix,
      .table [(.text "enabled", .bool o.bem.enabled), (.text "element",
          .text o.bem.element), (.text "modifier", .text o.bem.modifier)]]
  .table ((fieldNames.map .text).zip values)

end Options

end Scaffold

import Scaffold.CommandLine.Run
import Scaffold.Proofs.CommandLine.Reading
import Scaffold.Proofs.CommandLine.Typing
import Scaffold.Proofs.Manifest.Recording
/-!
The command that a manifest's component is recorded with, typed again.  The
options that it leaves out are at what the command line takes without them,
except for the directory.  Main statement: `repeated_request_iff`.
-/
namespace Scaffold.CommandLine

/-- The request that a command stands for where nothing is configured. Its first
argument is the program. -/
def requestOfTyped (line : String) : Except Stop Component.Request :=
  let arguments := (typedArguments line).tail
  (Arguments.ofList arguments).map (·.request (Text.join " " arguments) {})

end Scaffold.CommandLine

namespace Scaffold.Manifest

open Scaffold.CommandLine
open Scaffold.CommandLine.Arguments
  (unlessUsual optionArguments getD_unlessUsual eq_of_unlessUsual_eq_some)

variable {r : Scaffold.Component.Request}

def IsTypeable (r : Scaffold.Component.Request) : Prop :=
  isBare r.name = true ∧ ∀ s ∈ recordedTexts r, isBare s = true

theorem flatMap_unless {α β : Type} {p : Prop} [Decidable p] (x : α)
    (f : α → List β) :
    (if p then [] else [x]).flatMap f = if p then [] else f x := by
  split <;> simp

theorem forall_mem_unless {α : Type} {p : Prop} [Decidable p] {x : α}
    {q : α → Prop} (h : q x) : ∀ y ∈ (if p then [] else [x]), q y := by
  split <;> simp [h]

/-- The arguments for a directory. Its value is the only one without quotation
marks that can be empty, and then it is none. -/
def directoryArguments (directory : String) : List String :=
  if directory = usualDirectory then []
  else Arguments.ofLetter 'd' :: (unlessUsual "" directory).toList

/-- The arguments behind the one for the directory. -/
def rearArguments (r : Scaffold.Component.Request) : List String :=
  optionArguments 's' ((unlessUsual .css r.style).map Style.name) ++
    (optionArguments 'e' (unlessUsual "" r.source.source) ++
      ["--" ++ r.language.extension])

section Option

variable {s part : String} {c : Char} (hs : isBare s = true) (hmark : c ≠ '"')
  (hpart : part = Arguments.ofLetter c ++ " " ++ ("\"" ++ s ++ "\""))

include hs hmark hpart

theorem isQuotedBehind_option : isQuotedBehind false part.toList = false := by
  rw [hpart, isQuotedBehind_letter hmark,
    isQuotedBehind_quoted (not_mem_of_isBare hs)]

theorem typedArguments_option_unless (hblank : Text.isBlank c = false) :
    (if s.isEmpty then [] else [part]).flatMap typedArguments =
      optionArguments c (unlessUsual "" s) := by
  rw [flatMap_unless, hpart, typedArguments_letter hmark hblank,
    typedArguments_quoted (not_mem_of_isBare hs), unlessUsual]
  simp only [String.isEmpty_iff]
  split <;> rfl

end Option

theorem letter_quoted (c : Char) (s : String) :
    String.ofList ['-', c, ' ', '"'] ++ s ++ "\"" =
      Arguments.ofLetter c ++ " " ++ ("\"" ++ s ++ "\"") := by
  apply String.ext
  simp [Arguments.ofLetter]

theorem typedArguments_command (h : IsTypeable r) :
    typedArguments (command r) =
      "mkcomp" :: ((unlessUsual "" r.name).toList ++
        (optionArguments 'p' (unlessUsual "" r.props) ++
          (directoryArguments r.directory ++ rearArguments r))) := by
  obtain ⟨hname, htexts⟩ := h
  simp only [recordedTexts, List.forall_mem_cons] at htexts
  obtain ⟨hprops, hdirectory, hsource, -⟩ := htexts
  have hp : "-p \"" ++ r.props ++ "\"" =
      Arguments.ofLetter 'p' ++ " " ++ ("\"" ++ r.props ++ "\"") :=
        letter_quoted 'p' r.props
  have he : "-e \"" ++ r.source.source ++ "\"" =
      Arguments.ofLetter 'e' ++ " " ++ ("\"" ++ r.source.source ++ "\"") :=
    letter_quoted 'e' r.source.source
  have hletter : "-d " = Arguments.ofLetter 'd' ++ " " := by decide
  have hd :
      (if r.directory = usualDirectory then []
        else ["-d " ++ r.directory]).flatMap typedArguments =
        directoryArguments r.directory := by
    rw [flatMap_unless, hletter, typedArguments_letter (by decide) (by decide),
      typedArguments_bare hdirectory, directoryArguments]
  have hs : (if r.style = .css then [] else ["-s " ++ r.style.name]).flatMap
      typedArguments =
      optionArguments 's' ((unlessUsual .css r.style).map Style.name) := by
    cases r.style <;> decide
  have hlanguage :
      typedArguments ("--" ++ r.language.extension) =
        ["--" ++ r.language.extension] := by
    cases r.language <;> decide
  have hprogram : typedArguments "mkcomp" = ["mkcomp"] := by decide
  rw [command, typedArguments_join]
  · simp only [List.flatMap_append, List.flatMap_cons, List.flatMap_nil, hd, hs,
      hlanguage, hprogram, typedArguments_option_unless hprops (by decide) hp
      (by decide), typedArguments_option_unless hsource (by decide) he
      (by decide), typedArguments_bare hname, rearArguments, List.append_assoc,
      List.append_nil, List.cons_append, List.nil_append]
  · have hclosed : isQuotedBehind false ("-d " ++ r.directory).toList =
        false := by
      rw [hletter, isQuotedBehind_letter (by decide),
        isQuotedBehind_of_not_mem (not_mem_of_isBare hdirectory)]
    simp only [List.forall_mem_append, List.forall_mem_cons, List.not_mem_nil,
      false_implies, implies_true, and_true]
    refine ⟨⟨⟨⟨⟨⟨by decide, isQuotedBehind_of_not_mem (not_mem_of_isBare
      hname)⟩, forall_mem_unless (isQuotedBehind_option hprops (by decide) hp)⟩,
      forall_mem_unless hclosed⟩, forall_mem_unless ?_⟩,
      forall_mem_unless (isQuotedBehind_option hsource (by decide) he)⟩, ?_⟩
    · cases r.style <;> decide
    · cases r.language <;> decide

/-! ### Reading the command -/

theorem readAll_front (h : IsTypeable r) (rest : List String) :
    Arguments.readAll {} .anything ((unlessUsual "" r.name).toList ++
        (optionArguments 'p' (unlessUsual "" r.props) ++ rest)) =
      Arguments.readAll
        { name := unlessUsual "" r.name, props := unlessUsual "" r.props }
        .anything rest := by
  have hprops : Arguments.isPlain r.props = true :=
    isPlain_of_isBare (h.2 r.props (by simp [recordedTexts]))
  have hname : ∀ name, unlessUsual "" r.name = some name →
      Arguments.isPlain name = true := by
    intro name hsome
    rw [eq_of_unlessUsual_eq_some hsome]
    exact isPlain_of_isBare h.1
  rw [Arguments.readAll_name? hname]
  apply Arguments.readAll_unlessUsual (p := .props) rfl hprops
  · intro hnone
    rw [hnone]
  · intro hsome
    rw [hsome]
    rfl

theorem readAll_directory {directory : String}
    (hplain : Arguments.isPlain directory = true) (hne : directory ≠ "")
    {a : Arguments} (ha : a.directory = none) (rest : List String) :
    Arguments.readAll a .anything (directoryArguments directory ++ rest) =
      Arguments.readAll
        { a with directory := unlessUsual usualDirectory directory }
        .anything rest := by
  have harguments : directoryArguments directory =
      optionArguments 'd' (unlessUsual usualDirectory directory) := by
    rw [directoryArguments, unlessUsual, unlessUsual, if_neg hne]
    split <;> rfl
  rw [harguments]
  apply Arguments.readAll_unlessUsual (p := .directory) rfl hplain
  · intro hnone
    rw [hnone, ← ha]
  · intro hsome
    rw [hsome]
    simp [Arguments.set, Arguments.path, Arguments.once, ha, hne, bind,
      Except.bind, pure, Except.pure]

/-- An empty directory leaves its option without a value, as no argument behind
it can be one. -/
theorem readAll_noDirectory (a : Arguments) :
    Arguments.readAll a .anything (directoryArguments "" ++ rearArguments r) =
      .error (.misuse (.missingValue "dir")) := by
  have hlanguage : Arguments.isPlain ("--" ++ r.language.extension) =
      false := by
    cases r.language <;> decide
  obtain ⟨next, rest, hrear, hnext⟩ := Arguments.exists_option_cons 's'
    ((unlessUsual .css r.style).map Style.name)
    (Arguments.exists_option_cons 'e' (unlessUsual "" r.source.source) ⟨_, [],
      rfl, hlanguage⟩)
  have harguments : directoryArguments "" = [Arguments.ofLetter 'd'] := by
    decide
  rw [harguments, rearArguments, hrear, List.singleton_append,
    Arguments.readAll_letter (p := .directory) rfl,
    Arguments.readAll_noValue hnext]
  rfl

theorem readAll_language (l : Language) {a : Arguments} (hjsx : a.jsx = false)
    (htsx : a.tsx = false) :
    Arguments.readAll a .anything ["--" ++ l.extension] =
      .ok { a with jsx := decide (l = .jsx), tsx := decide (l = .tsx) } := by
  cases a
  obtain rfl := hjsx
  obtain rfl := htsx
  cases l with
  | tsx => exact (Arguments.readAll_switch .tsx _ []).trans rfl
  | jsx => exact (Arguments.readAll_switch .jsx _ []).trans rfl

theorem readAll_style (style : Style) {a : Arguments} (ha : a.style = none)
    (rest : List String) :
    Arguments.readAll a .anything
        (optionArguments 's' ((unlessUsual .css style).map Style.name) ++
          rest) =
      Arguments.readAll { a with style := unlessUsual .css style }
        .anything rest := by
  apply Arguments.readAll_option (p := .style) rfl
  · intro hnone
    rw [Option.map_eq_none_iff.1 hnone, ← ha]
  · intro value hvalue
    obtain ⟨style', hsome, rfl⟩ := Option.map_eq_some_iff.1 hvalue
    have hchoice : Arguments.choice "style" Style.name Style.all style'.name =
        .ok style' := by
      cases style' <;> decide
    refine ⟨by cases style' <;> decide, ?_⟩
    rw [hsome]
    simp [Arguments.set, Arguments.once, Parameter.longName, hchoice, ha, bind,
      Except.bind, pure, Except.pure]

theorem readAll_abbreviation {source : String}
    (hplain : Arguments.isPlain source = true) {a : Arguments}
    (ha : a.abbreviation = none) (rest : List String) :
    Arguments.readAll a .anything
      (optionArguments 'e' (unlessUsual "" source) ++ rest) =
      Arguments.readAll { a with abbreviation := unlessUsual "" source }
        .anything rest := by
  apply Arguments.readAll_unlessUsual (p := .abbreviation) rfl hplain
  · intro hnone
    rw [hnone, ← ha]
  · intro hsome
    rw [hsome]
    simp [Arguments.set, Arguments.once, ha, bind, Except.bind, pure,
      Except.pure]

/-- The arguments that a command is read to. -/
def argumentsOf (r : Scaffold.Component.Request) : Arguments where
  name := unlessUsual "" r.name
  props := unlessUsual "" r.props
  directory := unlessUsual usualDirectory r.directory
  style := unlessUsual .css r.style
  abbreviation := unlessUsual "" r.source.source
  jsx := decide (r.language = .jsx)
  tsx := decide (r.language = .tsx)

theorem misuse?_argumentsOf (r : Scaffold.Component.Request) :
    (argumentsOf r).misuse? = none := by
  cases hlanguage : r.language <;>
    simp [argumentsOf, Arguments.misuse?, Arguments.conflicts, hlanguage]

theorem ofList_command (h : IsTypeable r) :
    Arguments.ofList (typedArguments (command r)).tail =
      if r.directory = "" then .error (.misuse (.missingValue "dir"))
      else .ok (argumentsOf r) := by
  have hbare : ∀ s ∈ recordedTexts r, Arguments.isPlain s = true := fun s hs =>
    isPlain_of_isBare (h.2 s hs)
  simp only [recordedTexts, List.forall_mem_cons] at hbare
  obtain ⟨-, hdirectory, hsource, -⟩ := hbare
  rw [typedArguments_command h, List.tail_cons]
  split
  · next hempty =>
      apply Arguments.ofList_of_error
      rw [readAll_front h, hempty, readAll_noDirectory]
  · next hne =>
      apply Arguments.ofList_of_ok _ (misuse?_argumentsOf r)
      rw [readAll_front h, readAll_directory hdirectory hne rfl, rearArguments,
        readAll_style r.style rfl, readAll_abbreviation hsource rfl,
        readAll_language r.language rfl rfl]
      rfl

theorem request_argumentsOf {s : String} (hsource : r.source = .abbreviation s)
    (typed : String) :
    (argumentsOf r).request typed {} =
      { name := r.name
        props := r.props
        directory := if r.directory = usualDirectory then "." else r.directory
        style := r.style
        source := r.source
        language := r.language
        command := some ("mkcomp " ++ typed) } := by
  have hdirectory : (unlessUsual usualDirectory r.directory).getD "." =
      if r.directory = usualDirectory then "." else r.directory := by
    rw [unlessUsual]
    split <;> rfl
  have hlanguage : Language.choose (decide (r.language = .jsx))
      (decide (r.language = .tsx)) .auto =
      r.language := by
    cases r.language <;> rfl
  simp [Arguments.request, argumentsOf, getD_unlessUsual, hdirectory, hlanguage,
    hsource, Structure.source]

/-- The request is the same again, apart from what the command line has no
option for. -/
structure IsRepeatedBy (r again : Scaffold.Component.Request) : Prop where
  name : again.name = r.name
  props : again.props = r.props
  directory : again.directory = r.directory
  style : again.style = r.style
  source : again.source = r.source
  language : again.language = r.language

theorem requestOfTyped_of_empty (h : IsTypeable r) (hempty : r.directory = "") :
    requestOfTyped (command r) = .error (.misuse (.missingValue "dir")) := by
  rw [requestOfTyped]
  simp only [ofList_command h, if_pos hempty]
  rfl

theorem requestOfTyped_of_ne_empty (h : IsTypeable r) {s : String}
    (hsource : r.source = .abbreviation s) (hne : r.directory ≠ "") :
    ∃ again, requestOfTyped (command r) = .ok again ∧
      IsRepeatedBy
        { r with
          directory :=
            if r.directory = usualDirectory then "." else r.directory }
        again := by
  rw [requestOfTyped]
  simp only [ofList_command h, if_neg hne, Except.map,
    request_argumentsOf hsource]
  exact ⟨_, rfl, rfl, rfl, rfl, rfl, rfl, rfl⟩

/-- The recorded command of a component gives its request again exactly if the
directory is neither the one that commands leave out nor empty. The command line
has another usual directory, and takes no empty one. -/
theorem repeated_request_iff (c : Manifest.Component) (defaults : Defaults)
    (o : Overrides) {s : String}
    (hsource : (c.request defaults o).source = .abbreviation s)
    (h : IsTypeable (c.request defaults o)) :
    ∃ line, (c.request defaults o).command = some line ∧
      ((∃ again, requestOfTyped line = .ok again ∧
        IsRepeatedBy (c.request defaults o) again) ↔
        (c.request defaults o).directory ≠ usualDirectory ∧
          (c.request defaults o).directory ≠ "") ∧
      ((c.request defaults o).directory = usualDirectory →
        ∃ again, requestOfTyped line = .ok again ∧
          IsRepeatedBy { c.request defaults o with directory := "." } again) ∧
      ((c.request defaults o).directory = "" →
        requestOfTyped line = .error (.misuse (.missingValue "dir"))) := by
  refine ⟨command (c.request defaults o), rfl, ?_⟩
  generalize c.request defaults o = r at hsource h ⊢
  by_cases hempty : r.directory = ""
  · have herror := requestOfTyped_of_empty h hempty
    have hne : usualDirectory ≠ "" := by decide
    simp [herror, hempty, hne.symm]
  · obtain ⟨again, hagain, hrepeated⟩ :=
      requestOfTyped_of_ne_empty h hsource hempty
    by_cases husual : r.directory = usualDirectory
    · rw [if_pos husual] at hrepeated
      refine ⟨?_, fun _ => ⟨again, hagain, hrepeated⟩, fun h => absurd h hempty⟩
      constructor
      -- The line is read to one request only, and that one is for another
      -- directory.
      · rintro ⟨again', hagain', hrepeated'⟩
        obtain rfl : again = again' := Except.ok.inj (hagain.symm.trans hagain')
        have hdirectory : usualDirectory = "." := by
          rw [← husual, ← hrepeated'.directory, hrepeated.directory]
        exact absurd hdirectory (by decide)
      · exact fun hne => absurd husual hne.1
    · rw [if_neg husual] at hrepeated
      exact ⟨iff_of_true ⟨again, hagain, hrepeated⟩ ⟨husual, hempty⟩, fun h =>
        absurd h husual, fun h => absurd h hempty⟩

namespace RepeatingWitness

def card (directory : String) : Manifest.Component where
  name := "Card"
  output := ⟨directory, none⟩
  props := [⟨"title", "string", some false⟩]
  markup := some ⟨some "header+main", none⟩

theorem repeated_request_card :
    ((card "ui").request {} {}).source = .abbreviation "header+main" ∧
      IsTypeable ((card "ui").request {} {}) ∧
      ∃ again,
        requestOfTyped
          "mkcomp Card -p \"title?:string\" -d ui -e \"header+main\" --tsx" =
          .ok again ∧
        IsRepeatedBy ((card "ui").request {} {}) again := by
  have hsource : ((card "ui").request {} {}).source =
      .abbreviation "header+main" := by
    decide
  have htypeable : IsTypeable ((card "ui").request {} {}) :=
    ⟨by decide, by decide⟩
  obtain ⟨line, hline, hiff, -⟩ :=
    repeated_request_iff (card "ui") {} {} hsource htypeable
  obtain rfl : _ = line := Option.some.inj hline
  exact ⟨hsource, htypeable, hiff.2 ⟨by decide, by decide⟩⟩

/-- What is recorded for a component among the usual ones generates it somewhere
else. -/
theorem usual_directory_is_lost :
    ((card usualDirectory).request {} {}).source = .abbreviation "header+main" ∧
      IsTypeable ((card usualDirectory).request {} {}) ∧
      ((card usualDirectory).request {} {}).command =
        some "mkcomp Card -p \"title?:string\" -e \"header+main\" --tsx" ∧
      ¬ ∃ again,
        requestOfTyped
          "mkcomp Card -p \"title?:string\" -e \"header+main\" --tsx" =
          .ok again ∧
        IsRepeatedBy ((card usualDirectory).request {} {}) again := by
  refine ⟨by decide, ⟨by decide, by decide⟩, by decide, ?_⟩
  rintro ⟨again, hagain, hrepeated⟩
  have hread : (requestOfTyped
      "mkcomp Card -p \"title?:string\" -e \"header+main\" --tsx").map
      (·.directory) = .ok "." := by
    decide
  rw [hagain] at hread
  have hdirectory : again.directory = "." := Except.ok.inj hread
  rw [hrepeated.directory] at hdirectory
  exact absurd hdirectory (by decide)

end RepeatingWitness

end Scaffold.Manifest

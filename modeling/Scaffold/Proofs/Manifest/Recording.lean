import Mathlib.Data.List.Infix
import Scaffold.Manifest
import Scaffold.Proofs.Component.Recording
/-!
The command that a manifest's component is recorded with.  It repeats the texts
of its request as they are, between words that end no comment, so it stays in
its comments exactly if none of these texts ends one.  Main statement:
`records_request_iff`.
-/
namespace Scaffold.Manifest

open Scaffold.Text

/-- The characters that commands are worded with, apart from the texts that they
repeat. -/
def isWording (c : Char) : Bool :=
  c.isAlphanum || c == ' ' || c == '"' || c == ':' || c == '-'

theorem all_marks_not_isWording (style : Style) :
    ((Component.commentForms style).flatMap (·.marks)).all (!isWording ·) =
      true := by
  cases style <;> decide

theorem neutral_of_isWording {style : Style} {form : CommentForm}
    (hform : form ∈ Component.commentForms style) {c : Char}
    (hc : isWording c = true) : form.Neutral c := by
  intro hmem
  have hnot := List.all_eq_true.1 (all_marks_not_isWording style) c
    (List.mem_flatMap.2 ⟨form, hform, hmem⟩)
  rw [hc] at hnot
  cases hnot

variable {form : CommentForm}

theorem ends_join_iff (hblank : form.Neutral ' ') (ss : List String) :
    form.Ends (join " " ss).toList ↔ ∃ s ∈ ss, form.Ends s.toList := by
  induction ss with
  | nil => simpa [join] using form.not_ends_nil
  | cons s ss ih =>
      cases ss with
      | nil => simp [join]
      | cons t ss =>
          have htext : (join " " (s :: t :: ss)).toList =
              s.toList ++ ' ' :: (join " " (t :: ss)).toList := by
            rw [join_cons_cons]
            simp
          rw [htext, CommentForm.ends_append_cons_iff hblank, ih,
            List.exists_mem_cons_iff _ s]

/-- A text between words of a command ends a comment if it does so alone. -/
theorem ends_worded_iff (hwording : ∀ c, isWording c = true → form.Neutral c)
    (front s rest : String) (hfront : front.toList.all isWording = true)
    (hrest : rest.toList.all isWording = true) :
    form.Ends (front ++ s ++ rest).toList ↔ form.Ends s.toList := by
  rw [List.all_eq_true] at hfront hrest
  rw [String.toList_append, String.toList_append,
    CommentForm.ends_append_right_iff fun c hc => hwording c (hrest c hc),
    CommentForm.ends_append_left_iff fun c hc => hwording c (hfront c hc)]

theorem not_ends_wording (hwording : ∀ c, isWording c = true → form.Neutral c)
    {s : String} (hs : s.toList.all isWording = true) :
    ¬ form.Ends s.toList := by
  rw [List.all_eq_true] at hs
  exact CommentForm.not_ends_of_neutral fun c hc => hwording c (hs c hc)

/-- A part that is left out where its text ends no comment ends one if the text
does. -/
theorem exists_ends_unless_iff {p : Prop} [Decidable p] {part s : String}
    (hskip : p → ¬ form.Ends s.toList)
    (hpart : form.Ends part.toList ↔ form.Ends s.toList) :
    (∃ t ∈ (if p then [] else [part]), form.Ends t.toList) ↔
    form.Ends s.toList := by
  by_cases hp : p
  · simp [hp, hskip hp]
  · simp [hp, hpart]

/-- The texts that the command of a request repeats behind the name. -/
def recordedTexts (r : Component.Request) : List String :=
  [r.props, r.directory, r.source.source]

theorem not_ends_usualDirectory (style : Style) :
    ∀ form ∈ Component.commentForms style,
    ¬ form.Ends usualDirectory.toList := by
  cases style <;> decide

/-- A command ends a comment exactly if one of the texts that it repeats
does. -/
theorem ends_command_iff {style : Style}
    (hform : form ∈ Component.commentForms style) (r : Component.Request) :
    form.Ends (Component.generatedBy (command r)).toList ↔
      form.Ends r.name.toList ∨ ∃ s ∈ recordedTexts r, form.Ends s.toList := by
  have hwording : ∀ c, isWording c = true → form.Neutral c :=
    fun c => neutral_of_isWording hform
  have hempty : ∀ s : String, s.isEmpty = true → ¬ form.Ends s.toList := by
    intro s hs
    obtain rfl : s = "" := by simpa using hs
    exact form.not_ends_nil
  have hfront : form.Ends (Component.generatedBy (command r)).toList ↔
      form.Ends (command r).toList := by
    have h := ends_worded_iff hwording "Generated by mkcomp: " (command r) ""
      (by decide) (by decide)
    rwa [String.append_empty] at h
  have hprogram : ¬ form.Ends "mkcomp".toList :=
    not_ends_wording hwording (by decide)
  have hprops := exists_ends_unless_iff (hempty r.props)
    (ends_worded_iff hwording "-p \"" r.props "\"" (by decide) (by decide))
  have hdirectory : (∃ t ∈
      (if r.directory = usualDirectory then [] else ["-d " ++ r.directory]),
      form.Ends t.toList) ↔ form.Ends r.directory.toList := by
    refine exists_ends_unless_iff (fun husual => ?_) ?_
    · rw [husual]
      exact not_ends_usualDirectory style form hform
    · have h :=
        ends_worded_iff hwording "-d " r.directory "" (by decide) (by decide)
      rwa [String.append_empty] at h
  have hstyle :
      ¬ ∃ t ∈ (if r.style = .css then [] else ["-s " ++ r.style.name]),
      form.Ends t.toList := by
    have hname : ¬ form.Ends ("-s " ++ r.style.name).toList :=
      not_ends_wording hwording (by cases r.style <;> decide)
    rw [exists_ends_unless_iff (fun _ => hname) Iff.rfl]
    exact hname
  have hsource := exists_ends_unless_iff (hempty r.source.source)
    (ends_worded_iff hwording "-e \"" r.source.source "\"" (by decide)
      (by decide))
  have hlanguage : ¬ form.Ends ("--" ++ r.language.extension).toList :=
    not_ends_wording hwording (by cases r.language <;> decide)
  rw [hfront, command, ends_join_iff (hwording ' ' (by decide))]
  simp only [recordedTexts, List.mem_append, List.mem_cons, List.not_mem_nil,
    or_and_right, exists_or, exists_eq_left, hprogram, hprops, hdirectory,
    hstyle, hsource, hlanguage, false_or, or_false, or_assoc]

/-- The name of a component ends no comment. -/
theorem not_ends_of_nameFault? {style : Style}
    (hform : form ∈ Component.commentForms style) {name : String}
    (hname : Component.nameFault? name = none) : ¬ form.Ends name.toList := by
  have hcapitalized : Component.isCapitalized name.toList = true := by
    rw [Component.nameFault?] at hname
    split at hname
    · cases hname
    · split at hname
      · assumption
      · cases hname
  apply not_ends_wording fun c => neutral_of_isWording hform
  cases hchars : name.toList with
  | nil => rfl
  | cons c cs =>
      rw [hchars, Component.isCapitalized, Bool.and_eq_true] at hcapitalized
      have hletter : c.isAlphanum = true := by
        change (c.isUpper || c.isLower || c.isDigit) = true
        rw [hcapitalized.1]
        rfl
      rw [List.all_cons, isWording, hletter, Bool.true_or, Bool.true_or,
        Bool.true_or, Bool.true_or, Bool.true_and, List.all_eq_true]
      intro d hd
      rw [isWording, List.all_eq_true.1 hcapitalized.2 d hd]
      rfl

/-- Rendering the request of a manifest's component gives, in front of each file
that it gives without the recorded command, one comment of the language of that
file and a line break, exactly if its props, directory and structure hold
nothing that ends such a comment. -/
theorem records_request_iff (cfg : Config) (c : Manifest.Component)
    (defaults : Defaults) (o : Overrides) :
    Component.Records (c.request defaults o).style
        (Component.Request.render cfg
          { c.request defaults o with command := none })
        ((c.request defaults o).render cfg) ↔
      (Component.nameFault? c.name = none →
        ∀ form ∈ Component.commentForms (c.request defaults o).style,
          ∀ s ∈ recordedTexts (c.request defaults o),
            ¬ form.Ends s.toList) := by
  have hcommand : (c.request defaults o).command =
      some (command (c.request defaults o)) := rfl
  rw [Component.records_render_iff cfg hcommand]
  refine forall_congr' fun hname => forall₂_congr fun form hform => ?_
  rw [ends_command_iff hform, or_iff_right (not_ends_of_nameFault? hform hname)]
  simp only [not_exists, not_and]

namespace RecordingWitness

def list : Manifest.Component where
  name := "List"
  output := ⟨"ui", some .unstyled⟩
  markup := some ⟨none, some "<ul>\n</ul>"⟩

def box : Manifest.Component where
  name := "Box"
  output := ⟨"ui", none⟩
  props := [⟨"width", "number /* px */", none⟩]

/-- The second line of a markup stands in the component outside of any comment,
and a remark within a type closes the comment of the stylesheet. -/
theorem commands_leak :
    (list.request {} {}).command =
        some "mkcomp List -d ui -s none -e \"<ul>\n</ul>\" --tsx" ∧
      (box.request {} {}).command =
        some "mkcomp Box -p \"width:number /* px */\" -d ui --tsx" ∧
      ∀ c ∈ [list, box], ¬ Component.Records (c.request {} {}).style
        (Component.Request.render {} { c.request {} {} with command := none })
        ((c.request {} {}).render {}) := by
  refine ⟨by decide +kernel, by decide +kernel, ?_⟩
  simp only [List.forall_mem_cons, List.not_mem_nil, false_implies,
    implies_true, and_true]
  constructor
  · rw [Component.records_render_iff {} rfl]
    intro h
    exact h (by decide) Component.scriptComment List.mem_cons_self (by decide)
  · rw [Component.records_render_iff {} rfl]
    intro h
    exact h (by decide) .block (by decide) (by decide)

end RecordingWitness

end Scaffold.Manifest

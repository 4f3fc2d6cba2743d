import Mathlib.Data.List.Forall2
import Scaffold.Component.Rendering
import Scaffold.Proofs.Text.Comment
import Scaffold.Proofs.Text.Split
/-!
Generated files with the command that they come from.  The command stands in a
line of its own in front of the file as it is without one; whether that line is
a comment of the file's language is up to the command.  Main statement:
`records_render_iff`.
-/
namespace Scaffold.Component

/-- Comments in component files. Besides line feeds and carriage returns, the
line and paragraph separators end a line there. -/
def scriptComment : Text.CommentForm := .line ['\n', '\r', '\u2028', '\u2029']

/-- Comments in the stylesheet of a style, if there is one. Form feeds end a
line there too. -/
def stylesheetComment? : Style → Option Text.CommentForm
  | .css => some .block
  | .scss => some (.line ['\n', '\r', '\x0c'])
  | .tailwind | .styled | .unstyled => none

def FileRole.comment? (style : Style) : FileRole → Option Text.CommentForm
  | .component => some scriptComment
  | .stylesheet => stylesheetComment? style

def commentForms (style : Style) : List Text.CommentForm :=
  scriptComment :: (stylesheetComment? style).toList

/-- A file that is one comment, a line break, and another file. -/
structure File.Records (style : Style) (plain recorded : File) : Prop where
  path : recorded.path = plain.path
  role : recorded.role = plain.role
  content : ∃ form comment, plain.role.comment? style = some form ∧
    form.IsComment comment.toList ∧
      recorded.content = comment ++ "\n" ++ plain.content

/-- A rendering whose files are the files of another one behind a comment; or
else both fail. -/
def Records (style : Style) (plain recorded : Except Failure Rendering) :
    Prop :=
  match plain, recorded with
  | .ok plain, .ok recorded =>
    recorded.warnings = plain.warnings ∧
      List.Forall₂ (File.Records style) plain.files recorded.files
  | .error plain, .error recorded => recorded = plain
  | _, _ => False

theorem Source.text_recorded {r : Request} {command : String}
    (h : r.command = some command) (markup : String) :
    text r markup =
      "// " ++ generatedBy command ++ "\n" ++
        text { r with command := none } markup := by
  have hlines : importLines r =
      ("// " ++ generatedBy command) ::
        importLines { r with command := none } := by
    simp [importLines, h, hooks]
  have hcons : ∃ line lines,
      importLines { r with command := none } = line :: lines :=
    ⟨_, _, by rw [importLines]; rfl⟩
  obtain ⟨line, lines, hcons⟩ := hcons
  have himports : imports r =
      "// " ++ generatedBy command ++ "\n" ++
        imports { r with command := none } := by
    rw [imports, hlines, imports, hcons, Text.join_cons_cons]
  rw [text, himports, text]
  simp only [String.append_assoc]
  rfl

theorem Stylesheet.text_recorded {style : Style} {comment : String → String}
    (hstyle : comment? style = some comment) (command : String)
    (selectors : Selectors) :
    text style (some command) selectors =
      comment (generatedBy command) ++ "\n" ++ text style none selectors := by
  simp [text, hstyle, String.append_assoc]

theorem exists_comment_of_hasStylesheet {style : Style}
    (h : style.hasStylesheet = true) :
    ∃ form comment, stylesheetComment? style = some form ∧
      Stylesheet.comment? style = some comment := by
  cases style with
  | css => exact ⟨_, _, rfl, rfl⟩
  | scss => exact ⟨_, _, rfl, rfl⟩
  | tailwind => cases h
  | styled => cases h
  | unstyled => cases h

/-- A text and a line break in front of a file record it exactly if the text is
a comment. -/
theorem File.records_iff {style : Style} {form : Text.CommentForm}
    {plain recorded : File} (hform : plain.role.comment? style = some form)
    {comment : String}
    (hrecorded : recorded = { plain with
      content := comment ++ "\n" ++ plain.content }) :
    File.Records style plain recorded ↔ form.IsComment comment.toList := by
  subst hrecorded
  constructor
  · rintro ⟨-, -, form', comment', hform', hcomment, hcontent⟩
    obtain rfl : form = form' := Option.some.inj (hform.symm.trans hform')
    rw [String.append_left_inj, String.append_left_inj] at hcontent
    rwa [hcontent]
  · intro hcomment
    exact ⟨rfl, rfl, form, comment, hform, hcomment, rfl⟩

theorem isComment_script_iff (s : String) :
    scriptComment.IsComment ("// " ++ s).toList ↔
    ¬ scriptComment.Ends s.toList := by
  have htext : ("// " ++ s).toList = '/' :: '/' :: ' ' :: s.toList := by simp
  rw [htext]
  exact Text.CommentForm.isComment_line_iff (by decide) (by decide) s.toList

theorem isComment_stylesheet_iff {style : Style} {form : Text.CommentForm}
    {comment : String → String} (hform : stylesheetComment? style = some form)
    (hcomment : Stylesheet.comment? style = some comment) (s : String) :
    form.IsComment (comment s).toList ↔ ¬ form.Ends s.toList := by
  cases style with
  | css =>
      cases hform
      cases hcomment
      have htext : ("/* " ++ s ++ " */").toList =
          '/' :: '*' :: ' ' :: (s.toList ++ [' ', '*', '/']) := by simp
      rw [htext]
      exact Text.CommentForm.isComment_block_iff s.toList
  | scss =>
      cases hform
      cases hcomment
      have htext : ("// " ++ s).toList = '/' :: '/' :: ' ' :: s.toList := by
        simp
      rw [htext]
      exact Text.CommentForm.isComment_line_iff (by decide) (by decide) s.toList
  | tailwind => cases hform
  | styled => cases hform
  | unstyled => cases hform

theorem filesWith_eq_cons (r : Request) (body : Body) :
    r.filesWith body =
      ⟨r.componentPath, Source.text r body.markup, .component⟩ ::
        (r.stylesheetPath?.map fun path => (⟨path,
          Stylesheet.text r.style r.command body.selectors,
            .stylesheet⟩ : File)).toList := by
  rw [Request.filesWith]
  cases r.stylesheetPath? <;> rfl

/-- The files of a body record its command exactly if this ends no comment in
any of them. -/
theorem records_filesWith_iff {r : Request} {command : String}
    (h : r.command = some command) (body : Body) :
    List.Forall₂ (File.Records r.style)
      (Request.filesWith { r with command := none } body)
        (r.filesWith body) ↔
      ∀ form ∈ commentForms r.style,
      ¬ form.Ends (generatedBy command).toList := by
  have hcomponent : File.Records r.style
      ⟨r.componentPath, Source.text { r with command := none } body.markup,
        .component⟩
      ⟨r.componentPath, Source.text r body.markup, .component⟩ ↔
        ¬ scriptComment.Ends (generatedBy command).toList := by
    rw [File.records_iff rfl (by rw [Source.text_recorded h]),
      isComment_script_iff]
  have hpaths :
      Request.componentPath { r with command := none } = r.componentPath ∧
      Request.stylesheetPath? { r with command := none } = r.stylesheetPath? :=
    ⟨rfl, rfl⟩
  rw [filesWith_eq_cons, filesWith_eq_cons, hpaths.1, hpaths.2,
    List.forall₂_cons, hcomponent, commentForms, List.forall_mem_cons, h]
  refine and_congr_right' ?_
  rw [Request.stylesheetPath?]
  by_cases hsheet : r.style.hasStylesheet = true
  · obtain ⟨form, comment, hform, hcomment⟩ :=
      exists_comment_of_hasStylesheet hsheet
    have hstylesheet : ∀ path, File.Records r.style
        ⟨path, Stylesheet.text r.style none body.selectors, .stylesheet⟩
        ⟨path, Stylesheet.text r.style (some command) body.selectors,
          .stylesheet⟩ ↔
          ¬ form.Ends (generatedBy command).toList := by
      intro path
      rw [← isComment_stylesheet_iff hform hcomment]
      apply File.records_iff
      · exact hform
      · rw [Stylesheet.text_recorded hcomment]
    rw [if_pos hsheet, hform]
    simp [hstylesheet]
  · have hform : stylesheetComment? r.style = none := by
      cases hstyle : r.style <;>
        simp_all [Style.hasStylesheet, stylesheetComment?]
    rw [if_neg hsheet, hform]
    simp

/-- Rendering a request gives one comment in front of each file that it gives
without a command, exactly if the command ends no comment in any of these files;
or its name is none. -/
theorem records_render_iff (c : Config) {r : Request} {command : String}
    (h : r.command = some command) :
    Records r.style (Request.render c { r with command := none }) (r.render c) ↔
      (nameFault? r.name = none →
        ∀ form ∈ commentForms r.style,
          ¬ form.Ends (generatedBy command).toList) := by
  rw [Request.render, Request.render]
  dsimp only
  cases hname : nameFault? r.name with
  | some fault => simp [Records]
  | none =>
      simp only [Records, true_and, forall_const]
      exact records_filesWith_iff h _

end Scaffold.Component

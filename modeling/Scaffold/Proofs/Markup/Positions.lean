import Mathlib.Data.List.DropRight
import Scaffold.Markup.Page
import Scaffold.Proofs.Text.Lines
/-!
The place that an output has reached.  Offset, line and column are counted on
with every write and never read off the text, and a line break is first counted
into the column and then overwrites it. They still are the place of the text's
end, as long as the only line feeds are those that begin lines.  Main statement:
`isExact_run`.
-/
namespace Scaffold

namespace Text

/-- What stands behind the last line feed, or all characters if there is
none. -/
def lastLine (cs : List Char) : List Char := cs.rtakeWhile (· != '\n')

/-- Characters without a line feed go on with the last line. -/
theorem lastLine_append {ds : List Char} (h : '\n' ∉ ds) (cs : List Char) :
    lastLine (cs ++ ds) = lastLine cs ++ ds := by
  have hall : ∀ c ∈ ds.reverse, (c != '\n') = true := fun c hc =>
    bne_iff_ne.2 fun heq => h (heq ▸ List.mem_reverse.1 hc)
  rw [lastLine, List.rtakeWhile, List.reverse_append,
    List.takeWhile_append_of_pos hall, List.reverse_append,
    List.reverse_reverse]
  rfl

theorem lastLine_append_feed (cs : List Char) :
    lastLine (cs ++ ['\n']) = [] := by
  simp [lastLine, List.rtakeWhile]

theorem not_mem_of_hasBreak {s : String} (h : hasBreak s = false) :
    '\n' ∉ s.toList := by
  intro hmem
  have hfeed := List.all_eq_true.1 (hasBreak_eq_false_iff.1 h) '\n' hmem
  exact absurd hfeed (by decide)

end Text

namespace Markup

namespace Output

/-- Offset, line and column are those of the end of the text: the number of
characters, the number of line feeds, and the number of characters on the last
line. -/
structure IsExact (out : Output) : Prop where
  offset : out.offset = out.text.length
  line : out.line = out.text.toList.count '\n'
  column : out.column = (Text.lastLine out.text.toList).length

/-- What can be done to an output. -/
inductive Action
  | string (s : String)
  | newline (n : Int)
  | indent (n : Int)
  | field (index : Nat) (name : String)
  /-- Goes on at a level of indentation. -/
  | level (n : Int)

namespace Action

def apply (o : Options) (h : Hooks) (out : Output) : Action → Output
  | string s => out.string o h s
  | newline n => out.newline o n
  | indent n => out.indent o n
  | field index name => out.field h index name
  | level n => { out with level := n }

/-- The actions, one behind the other. -/
def run (o : Options) (h : Hooks) (actions : List Action) (out : Output) :
    Output :=
  actions.foldl (apply o h) out

def IsOneLine (h : Hooks) : Action → Prop
  | field index name => Text.hasBreak (h.field index name) = false
  | _ => True

end Action

/-- Lines are separated by one of the usual breaks and begin with an indentation
without breaks. -/
structure BreaksPlainly (o : Options) : Prop where
  newline : o.newline = "\n" ∨ o.newline = "\r\n"
  indent : Text.hasBreak o.indent = false
  baseIndent : Text.hasBreak o.baseIndent = false

variable {o : Options} {h : Hooks} {out : Output}

theorem isExact_empty : ({} : Output).IsExact := ⟨rfl, rfl, rfl⟩

theorem IsExact.shift (exact : out.IsExact) (n : Int) :
    { out with level := n }.IsExact :=
  ⟨exact.offset, exact.line, exact.column⟩

/-! ### One write -/

theorem IsExact.raw (exact : out.IsExact) {s : String}
    (hfeed : '\n' ∉ s.toList) : (out.raw s).IsExact where
  offset := by simp [Output.raw, exact.offset]
  line := by simp [Output.raw, exact.line, List.count_eq_zero.2 hfeed]
  column := by
    rw [Output.raw]
    dsimp only
    rw [String.toList_append, Text.lastLine_append hfeed, List.length_append,
      exact.column, String.length_toList]

theorem not_mem_join_replicate {unit : String} (hunit : '\n' ∉ unit.toList)
    (n : Nat) : '\n' ∉ (String.join (List.replicate n unit)).toList := by
  induction n with
  | zero => simp
  | succ n ih =>
      rw [List.replicate_succ, String.join_cons, String.toList_append,
        List.mem_append]
      exact not_or.2 ⟨hunit, ih⟩

theorem IsExact.indent (layout : BreaksPlainly o) (exact : out.IsExact)
    (n : Int) : (out.indent o n).IsExact :=
  exact.raw
    (not_mem_join_replicate (Text.not_mem_of_hasBreak layout.indent) n.toNat)

/-- Whatever stands in front of the line feed of a line break, the feed ends the
line. -/
theorem BreaksPlainly.exists_newline (layout : BreaksPlainly o) :
    ∃ front, '\n' ∉ front ∧ o.newline.toList = front ++ ['\n'] := by
  rcases layout.newline with hfeed | hreturn
  · exact ⟨[], List.not_mem_nil, by rw [hfeed]; rfl⟩
  · exact ⟨['\r'], by decide, by rw [hreturn]; rfl⟩

/-- The column counted on over a line break is overwritten by that of the
indentation behind it. -/
theorem IsExact.newline (layout : BreaksPlainly o) (exact : out.IsExact)
    (n : Int) : (out.newline o n).IsExact := by
  obtain ⟨front, hfront, hnewline⟩ := layout.exists_newline
  have hbase := Text.not_mem_of_hasBreak layout.baseIndent
  have hbroken : { out.raw (o.newline ++ o.baseIndent) with
      line := out.line + 1, column := o.baseIndent.length }.IsExact :=
    { offset := by simp [Output.raw, exact.offset]
      line := by
        simp [Output.raw, exact.line, hnewline, List.count_eq_zero.2 hfront,
          List.count_eq_zero.2 hbase]
      column := by
        have htext : (out.text ++ (o.newline ++ o.baseIndent)).toList =
            (out.text.toList ++ front ++ ['\n']) ++ o.baseIndent.toList := by
          simp [hnewline]
        rw [Output.raw]
        dsimp only
        rw [htext, Text.lastLine_append hbase, Text.lastLine_append_feed,
          List.nil_append, String.length_toList] }
  rw [Output.newline]
  split
  · exact hbroken.indent layout n
  · exact hbroken

theorem IsExact.lines (layout : BreaksPlainly o) (plain : ∀ s, h.text s = s)
    {ss : List String} (hss : ∀ s ∈ ss, Text.hasBreak s = false)
    (exact : out.IsExact) : (out.lines o h ss).IsExact := by
  induction ss generalizing out with
  | nil => exact exact
  | cons s rest ih =>
    have hpushed : (out.push h s).IsExact := by
      rw [Output.push, plain]
      exact exact.raw (Text.not_mem_of_hasBreak (hss s List.mem_cons_self))
    cases rest with
    | nil => exact hpushed
    | cons t rest =>
      exact ih (fun u hu => hss u (List.mem_cons_of_mem s hu))
        (hpushed.newline layout out.level)

/-- A text is written line by line, so its own breaks do not matter. -/
theorem IsExact.string (layout : BreaksPlainly o) (plain : ∀ s, h.text s = s)
    (exact : out.IsExact) (s : String) : (out.string o h s).IsExact :=
  exact.lines layout plain fun _ hline => Text.hasBreak_of_mem_lines hline

/-! ### All writes -/

theorem IsExact.apply (layout : BreaksPlainly o) (plain : ∀ s, h.text s = s)
    (exact : out.IsExact) {a : Action} (oneLine : a.IsOneLine h) :
    (a.apply o h out).IsExact := by
  cases a with
  | string s => exact exact.string layout plain s
  | newline n => exact exact.newline layout n
  | indent n => exact exact.indent layout n
  | field index name => exact exact.raw (Text.not_mem_of_hasBreak oneLine)
  | level n => exact exact.shift n

/-- From an empty output on, the place is exact behind every one of the
actions. -/
theorem isExact_run (layout : BreaksPlainly o) (plain : ∀ s, h.text s = s)
    {actions : List Action} (oneLine : ∀ a ∈ actions, a.IsOneLine h)
    {done : List Action} (hdone : done <+: actions) :
    (Action.run o h done {}).IsExact := by
  have hrun : ∀ out : Output, out.IsExact → ∀ done : List Action,
      done ⊆ actions →
      (Action.run o h done out).IsExact := by
    intro out exact done hsubset
    induction done generalizing out with
    | nil => exact exact
    | cons a done ih =>
        obtain ⟨ha, hrest⟩ := List.cons_subset.1 hsubset
        exact ih (a.apply o h out)
          (exact.apply layout plain (oneLine a ha)) hrest
  exact hrun {} isExact_empty done hdone.subset

end Output

namespace PositionsWitness

/-- Lines end with two characters, and all lines but the first are set in by two
more. -/
def options : Options := { newline := "\r\n", baseIndent := "> " }

/-- Fields are shown with their number. -/
def hooks : Hooks := { field := fun index name => toString index ++ name }

open Output

/-- A text of two lines, a field and another line. -/
def actions : List Action :=
  [.level 2, .string "ab\rcd", .field 1 "x", .indent 1, .newline (-1)]

theorem breaksPlainly_options : BreaksPlainly options :=
  ⟨.inr rfl, by decide, by decide⟩

/-- In front of the last line break the output has two lines, the second one of
nine characters. -/
theorem isExact_run_fields :
    (BreaksPlainly options ∧ (∀ s, hooks.text s = s) ∧
      (∀ a ∈ actions, a.IsOneLine hooks) ∧
      actions.take 4 <+: actions) ∧
      (Action.run options hooks (actions.take 4) {}).IsExact ∧
      Action.run options hooks (actions.take 4) {} =
        ⟨"ab\r\n> \t\tcd1x\t", 2, 13, 1, 9⟩ := by
  have plain : ∀ s, hooks.text s = s := fun _ => rfl
  have oneLine : ∀ a ∈ actions, a.IsOneLine hooks := by
    have hfield : Text.hasBreak (hooks.field 1 "x") = false := by decide
    simpa [actions, Action.IsOneLine] using hfield
  have hdone : actions.take 4 <+: actions := List.take_prefix 4 actions
  exact ⟨⟨breaksPlainly_options, plain, oneLine, hdone⟩,
    isExact_run breaksPlainly_options plain oneLine hdone, by decide⟩

end PositionsWitness

end Markup

end Scaffold

import Scaffold.Markup.Page
import Scaffold.Proofs.Text.Lines
/-!
Writing as adding.  Whatever is written goes behind what a page already has, and
leaves its level alone.  What is added is known exactly for a text of one line,
for the pieces of such a text, and for a line break.
-/
namespace Scaffold.Markup

/-- The text of pieces of one line, with the fields counted from a base. -/
def written (c : Config) (base : Nat) (ps : List Piece) : String :=
  String.join (ps.map fun
    | .text s => s
    | .field index name => c.hooks.field (base + index) name)

/-- A line break with the indentation of a level. -/
def lineBreak (o : Options) (level : Nat) : String :=
  o.newline ++ o.baseIndent ++ String.join (List.replicate level o.indent)

namespace Page

/-- A page has a text behind what another one has, and is at the same level. -/
structure Adds (p q : Page) (s : String) : Prop where
  text : q.out.text = p.out.text ++ s
  level : q.out.level = p.out.level

/-- A page has what another one has, and perhaps more behind it. -/
def Extends (p q : Page) : Prop := ∃ s, p.Adds q s

variable {c : Config} {p q r : Page} {s t : String}

namespace Adds

theorem refl (p : Page) : p.Adds p "" := ⟨by rw [String.append_empty], rfl⟩

theorem trans (h : p.Adds q s) (h' : q.Adds r t) : p.Adds r (s ++ t) :=
  ⟨by rw [h'.text, h.text, String.append_assoc], h'.level.trans h.level⟩

/-- What is written at another level is added there. -/
theorem unshift {n : Int} (h : (p.shift n).Adds q s) :
    p.Adds (q.shift (-n)) s := by
  refine ⟨h.text, ?_⟩
  have hlevel : q.out.level = p.out.level + n := h.level
  change q.out.level + -n = p.out.level
  omega

end Adds

theorem Extends.refl (p : Page) : p.Extends p := ⟨"", .refl p⟩

theorem Extends.trans (h : p.Extends q) (h' : q.Extends r) : p.Extends r := by
  obtain ⟨s, hs⟩ := h
  obtain ⟨t, ht⟩ := h'
  exact ⟨s ++ t, hs.trans ht⟩

theorem adds_push (plain : ∀ s, c.hooks.text s = s) (p : Page) (s : String) :
    p.Adds (p.push c s) s :=
  ⟨by rw [push, Output.push, Output.raw, plain], rfl⟩

theorem extends_push (c : Config) (p : Page) (s : String) :
    p.Extends (p.push c s) :=
  ⟨c.hooks.text s, rfl, rfl⟩

theorem adds_newline (c : Config) (p : Page) (n : Int) :
    p.Adds (p.newline c n) (lineBreak c.options n.toNat) := by
  rw [newline, Output.newline]
  by_cases hpos : 0 < n
  · rw [if_pos hpos]
    exact ⟨by simp [Output.indent, Output.raw, lineBreak,
      String.append_assoc], rfl⟩
  · have hlevel : n.toNat = 0 := by omega
    rw [if_neg hpos, hlevel]
    exact ⟨by simp [Output.raw, lineBreak], rfl⟩

theorem adds_freshLine {level : Nat} (p : Page) (hlevel : p.out.level = level) :
    p.Adds (p.freshLine c) (lineBreak c.options level) := by
  have hbreak := adds_newline c p p.out.level
  rwa [hlevel, Int.toNat_natCast, ← hlevel] at hbreak

theorem adds_string (plain : ∀ s, c.hooks.text s = s) (p : Page)
    (hline : Text.hasBreak s = false) : p.Adds (p.string c s) s := by
  rw [string, Output.string, Text.lines_of_hasBreak_eq_false hline]
  exact adds_push plain p s

theorem extends_newline (c : Config) (p : Page) (n : Int) :
    p.Extends (p.newline c n) :=
  ⟨_, adds_newline c p n⟩

theorem extends_lines (c : Config) (p : Page) (ss : List String) :
    p.Extends { p with out := p.out.lines c.options c.hooks ss } := by
  induction ss generalizing p with
  | nil => exact .refl p
  | cons s rest ih =>
    have hpushed : p.Extends (p.push c s) := extends_push c p s
    cases rest with
    | nil => exact hpushed
    | cons t rest =>
      have hbreak := extends_newline c (p.push c s) p.out.level
      exact (hpushed.trans hbreak).trans (ih _)

theorem extends_string (c : Config) (p : Page) (s : String) :
    p.Extends (p.string c s) :=
  extends_lines c p (Text.lines s)

theorem extends_piece (c : Config) (p : Page) (x : Piece) :
    p.Extends (piece c p x) := by
  cases x with
  | text s => exact extends_string c p s
  | field index name => exact ⟨_, rfl, rfl⟩

theorem extends_foldl {α : Type} {write : Page → α → Page}
    (hwrite : ∀ p x, Extends p (write p x)) (xs : List α) (p : Page) :
    p.Extends (xs.foldl write p) := by
  induction xs generalizing p with
  | nil => exact .refl p
  | cons x xs ih => exact (hwrite p x).trans (ih (write p x))

/-- Setting the number that fields are counted from writes nothing. -/
theorem Adds.pieces_of_foldl {ps : List Piece}
    (h : p.Adds (ps.foldl (piece c) p) t) : p.Adds (p.pieces c ps) t := by
  rw [pieces]
  split
  · exact ⟨h.text, h.level⟩
  · exact h

theorem extends_pieces (c : Config) (p : Page) (ps : List Piece) :
    p.Extends (p.pieces c ps) := by
  obtain ⟨t, hfold⟩ := extends_foldl (extends_piece c) ps p
  exact ⟨t, hfold.pieces_of_foldl⟩

theorem adds_piece (plain : ∀ s, c.hooks.text s = s) (p : Page) {x : Piece}
    (hline : spansLines x = false) :
    p.Adds (piece c p x) (written c p.fieldBase [x]) := by
  cases x with
  | text s =>
    have hwritten : written c p.fieldBase [.text s] = s := by simp [written]
    rw [hwritten]
    exact adds_string plain p hline
  | field index name =>
    exact ⟨by simp [piece, count, Output.field, Output.raw, written], rfl⟩

theorem adds_pieces (plain : ∀ s, c.hooks.text s = s) (p : Page)
    {ps : List Piece} (hline : ps.all (!spansLines ·) = true) :
    p.Adds (p.pieces c ps) (written c p.fieldBase ps) := by
  refine Adds.pieces_of_foldl ?_
  induction ps generalizing p with
  | nil => exact .refl p
  | cons x ps ih =>
    rw [List.all_cons, Bool.and_eq_true, Bool.not_eq_true'] at hline
    have hrest := ih (piece c p x) hline.2
    rw [fieldBase_piece] at hrest
    have hboth := (adds_piece plain p hline.1).trans hrest
    rwa [written, written, ← String.join_append, ← List.map_append,
      List.singleton_append, ← written] at hboth

end Page

theorem valueLines_ne_nil (ps : List Piece) : valueLines ps ≠ [] := by
  cases ps with
  | nil => exact List.cons_ne_nil _ _
  | cons x ps =>
    cases x with
    | text s =>
      obtain ⟨line, lines, hlines⟩ :=
        List.exists_cons_of_ne_nil (Text.lines_ne_nil s)
      rw [valueLines, hlines]
      cases lines <;> cases valueLines ps <;> exact List.cons_ne_nil _ _
    | field index name =>
      rw [valueLines]
      cases valueLines ps <;> exact List.cons_ne_nil _ _

theorem exists_valueLines_eq_singleton {ps : List Piece}
    (h : ps.all (!spansLines ·) = true) : ∃ line, valueLines ps = [line] := by
  induction ps with
  | nil => exact ⟨[], rfl⟩
  | cons x ps ih =>
    rw [List.all_cons, Bool.and_eq_true, Bool.not_eq_true'] at h
    obtain ⟨line, hline⟩ := ih h.2
    cases x with
    | text s =>
      rw [valueLines, hline, Text.lines_of_hasBreak_eq_false h.1]
      exact ⟨_, rfl⟩
    | field index name =>
      rw [valueLines, hline]
      exact ⟨_, rfl⟩

/-- A value that makes one line has no line break. -/
theorem all_not_spansLines {ps : List Piece} (h : (valueLines ps).length ≤ 1) :
    ps.all (!spansLines ·) = true := by
  induction ps with
  | nil => rfl
  | cons x ps ih =>
    obtain ⟨line, lines, hbehind⟩ :=
      List.exists_cons_of_ne_nil (valueLines_ne_nil ps)
    rw [hbehind] at ih
    cases x with
    | field index name =>
      rw [valueLines, hbehind] at h
      exact ih h
    | text s =>
      rw [valueLines, hbehind] at h
      obtain ⟨first, rest, hlines⟩ :=
        List.exists_cons_of_ne_nil (Text.lines_ne_nil s)
      rw [hlines] at h
      cases rest with
      | nil =>
        have hline : Text.hasBreak s = false :=
          Text.hasBreak_eq_false_of_length_lines
            (by rw [hlines]; exact Nat.le_refl 1)
        rw [List.all_cons, ih h, spansLines, hline]
        rfl
      | cons second rest =>
        -- the text alone makes two lines
        cases rest <;> simp [valueLines.textLines] at h

end Scaffold.Markup

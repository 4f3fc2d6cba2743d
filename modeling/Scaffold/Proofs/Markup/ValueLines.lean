import Scaffold.Proofs.Markup.Adding
import Scaffold.Proofs.Text.Breaks
/-!
Values as lines.  The lines of a value have its fields and what its texts have
between line breaks, each once and in order, and they are what the breaks of its
texts stand between.  A line break that begins or ends a piece counts like any
other.  Main statements: `lines_lossless`, `cuts_valueLines`.
-/
namespace Scaffold

namespace Piece

/-- What is kept of a piece: a field, or the lines of a text that are not
empty. -/
def parts : Piece → List Piece
  | text s => ((Text.lines s).filter (!·.isEmpty)).map text
  | field index name => [field index name]

/-- The line breaks of a piece; a field makes none. -/
def breaks : Piece → List Text.LineBreak
  | text s => Text.breaks s
  | field _ _ => []

theorem plainText_cons (x : Piece) (ps : List Piece) :
    plainText (x :: ps) = x.plain ++ plainText ps := by
  rw [← List.singleton_append, plainText_append, plainText_singleton]

end Piece

namespace Markup

open valueLines

theorem textLines_cons_cons (s t : String) (ss : List String)
    (behind : List (List Piece)) :
    textLines (s :: t :: ss) behind =
      textPiece s :: textLines (t :: ss) behind := by
  cases behind <;> rfl

theorem flatten_textLines (ss : List String) (behind : List (List Piece)) :
    (textLines ss behind).flatten = ss.flatMap textPiece ++ behind.flatten := by
  fun_induction textLines ss behind with
  | case1 behind => rfl
  | case2 s => simp
  | case3 s line lines => simp
  | case4 s rest behind _ _ ih => simp [ih]

theorem flatMap_textPiece (ss : List String) :
    ss.flatMap textPiece = (ss.filter (!·.isEmpty)).map Piece.text := by
  induction ss with
  | nil => rfl
  | cons s ss ih =>
      rw [List.flatMap_cons, ih, textPiece, List.filter_cons]
      cases s.isEmpty <;> rfl

/-- Nothing of a value is lost, repeated or moved. -/
theorem flatten_valueLines (value : List Piece) :
    (valueLines value).flatten = value.flatMap Piece.parts := by
  induction value with
  | nil => rfl
  | cons x value ih =>
      rw [List.flatMap_cons, ← ih]
      cases x with
      | text s =>
          rw [valueLines, flatten_textLines, flatMap_textPiece]
          rfl
      | field index name =>
          rw [valueLines]
          cases valueLines value <;> rfl

theorem plainText_textPiece (s : String) :
    Piece.plainText (textPiece s) = s := by
  rw [textPiece]
  split
  · next hempty => exact (String.isEmpty_iff.1 hempty).symm
  · simp [Piece.plainText, Piece.plain]

/-- The last line of a text goes on with the first line behind it. -/
theorem weave_textLines {ss : List String} {bs : List Text.LineBreak}
    (hlength : ss.length = bs.length + 1) {behind : List (List Piece)}
    (hbehind : behind ≠ []) (bs' : List Text.LineBreak) :
    Text.weave ((textLines ss behind).map Piece.plainText) (bs ++ bs') =
      Text.weave ss bs ++ Text.weave (behind.map Piece.plainText) bs' := by
  induction bs generalizing ss with
  | nil =>
      obtain ⟨s, rfl⟩ := List.length_eq_one_iff.1 hlength
      obtain ⟨line, lines, rfl⟩ := List.exists_cons_of_ne_nil hbehind
      rw [textLines, List.map_cons, List.map_cons, Piece.plainText_append,
        plainText_textPiece]
      cases bs' <;> simp [Text.weave, String.append_assoc]
  | cons b bs ih =>
      obtain ⟨s, ss, rfl⟩ := List.exists_cons_of_length_eq_add_one hlength
      have hrest : ss.length = bs.length + 1 := Nat.succ.inj hlength
      obtain ⟨t, ss, rfl⟩ := List.exists_cons_of_length_eq_add_one hrest
      rw [textLines_cons_cons, List.map_cons, plainText_textPiece,
        List.cons_append, Text.weave, Text.weave, ih hrest,
        ← String.append_assoc]

theorem length_textLines {ss : List String} (hss : ss ≠ [])
    {behind : List (List Piece)} (hbehind : behind ≠ []) :
    (textLines ss behind).length + 1 = ss.length + behind.length := by
  induction ss with
  | nil => exact absurd rfl hss
  | cons s ss ih =>
      cases ss with
      | nil =>
          obtain ⟨line, lines, rfl⟩ := List.exists_cons_of_ne_nil hbehind
          exact Nat.add_comm (lines.length + 1) 1
      | cons t ss =>
          have hrest := ih (List.cons_ne_nil t ss)
          rw [textLines_cons_cons, List.length_cons, List.length_cons, hrest,
            Nat.add_right_comm]

/-- A value has one more line than its texts have breaks. -/
theorem length_valueLines (value : List Piece) :
    (valueLines value).length = (value.flatMap Piece.breaks).length + 1 := by
  induction value with
  | nil => rfl
  | cons x value ih =>
      have hne := valueLines_ne_nil value
      rw [List.flatMap_cons, List.length_append]
      cases x with
      | text s =>
          have hlines := length_textLines (Text.lines_ne_nil s) hne
          have hcuts := (Text.cuts_lines s).length
          rw [valueLines, Piece.breaks]
          omega
      | field index name =>
          obtain ⟨line, lines, hlines⟩ := List.exists_cons_of_ne_nil hne
          rw [valueLines, hlines, Piece.breaks, List.length_nil, Nat.zero_add,
            ← ih, hlines]
          rfl

/-- The plain texts of a value's lines have its breaks between them. -/
theorem weave_valueLines (value : List Piece) :
    Text.weave ((valueLines value).map Piece.plainText)
      (value.flatMap Piece.breaks) =
      Piece.plainText value := by
  induction value with
  | nil => rfl
  | cons x value ih =>
      have hne := valueLines_ne_nil value
      rw [Piece.plainText_cons, ← ih, List.flatMap_cons]
      cases x with
      | text s =>
          have hcuts := Text.cuts_lines s
          rw [valueLines, Piece.breaks, weave_textLines hcuts.length hne,
            hcuts.woven]
          rfl
      | field index name =>
          obtain ⟨line, lines, hlines⟩ := List.exists_cons_of_ne_nil hne
          rw [valueLines, hlines, Piece.breaks, List.nil_append, List.map_cons,
            List.map_cons, Piece.plainText_cons]
          cases value.flatMap Piece.breaks <;>
            simp [Text.weave, String.append_assoc]

/-- What stands on a line of a value is a field, or a part of a text that is not
empty. -/
theorem exists_of_mem_valueLines {value line : List Piece}
    (hline : line ∈ valueLines value) {x : Piece} (hx : x ∈ line) :
    ∃ y ∈ value, x ∈ y.parts := by
  have hmem : x ∈ (valueLines value).flatten :=
    List.mem_flatten.2 ⟨line, hline, hx⟩
  rw [flatten_valueLines] at hmem
  exact List.mem_flatMap.1 hmem

theorem hasBreak_plainText {ps : List Piece}
    (h : ∀ x ∈ ps, Text.hasBreak x.plain = false) :
    Text.hasBreak (Piece.plainText ps) = false := by
  induction ps with
  | nil => rfl
  | cons x ps ih =>
      rw [List.forall_mem_cons] at h
      rw [Piece.plainText_cons, Text.hasBreak_append, h.1, ih h.2]
      rfl

/-- The pieces of a line have no line break if no name of a field has one. -/
theorem hasBreak_of_mem_valueLines {value line : List Piece}
    (hline : line ∈ valueLines value)
    (names : ∀ index name, Piece.field index name ∈ value →
      Text.hasBreak name = false) :
    ∀ x ∈ line, Text.hasBreak x.plain = false := by
  intro x hx
  obtain ⟨y, hy, hpart⟩ := exists_of_mem_valueLines hline hx
  cases y with
  | text s =>
      obtain ⟨part, hmem, rfl⟩ := List.mem_map.1 hpart
      exact Text.hasBreak_of_mem_lines (List.mem_filter.1 hmem).1
  | field index name =>
      obtain rfl := List.mem_singleton.1 hpart
      exact names index name hy

/-- The lines of a value are what the breaks of its texts stand between. -/
theorem cuts_valueLines {value : List Piece}
    (names : ∀ index name, Piece.field index name ∈ value →
      Text.hasBreak name = false) :
    Text.Cuts (Piece.plainText value) ((valueLines value).map Piece.plainText)
      (value.flatMap Piece.breaks) where
  length := by rw [List.length_map, length_valueLines]
  clean := by
    intro part hpart
    obtain ⟨line, hline, rfl⟩ := List.mem_map.1 hpart
    exact hasBreak_plainText (hasBreak_of_mem_valueLines hline names)
  woven := weave_valueLines value

theorem breaks_eq_nil_iff (x : Piece) :
    x.breaks = [] ↔ spansLines x = false := by
  cases x with
  | text s => exact Text.breaks_eq_nil_iff
  | field index name => exact iff_of_true rfl rfl

theorem one_lt_length_valueLines_iff {value : List Piece} :
    1 < (valueLines value).length ↔ ∃ x ∈ value, spansLines x = true := by
  rw [length_valueLines, Nat.lt_add_left_iff_pos, List.length_pos_iff, ne_eq,
    List.flatMap_eq_nil_iff]
  simp [breaks_eq_nil_iff]

/-- The lines of a text are its parts between its line breaks, of which there is
one less, where a carriage return and a line feed behind it are one break:
together they are the text.  The lines of a value have its fields and the parts
of its texts that are not empty, each once and in order, with the breaks of its
texts between them, and there are more lines than one exactly if one of the
texts has a break. -/
theorem lines_lossless (s : String) (value : List Piece) :
    Text.Cuts s (Text.lines s) (Text.breaks s) ∧
      Text.KeepsPairs (Text.lines s) (Text.breaks s) ∧
      (valueLines value).flatten = value.flatMap Piece.parts ∧
      Text.weave ((valueLines value).map Piece.plainText)
        (value.flatMap Piece.breaks) =
        Piece.plainText value ∧
      (1 < (valueLines value).length ↔ ∃ x ∈ value, spansLines x = true) :=
  ⟨Text.cuts_lines s, Text.keepsPairs_lines s, flatten_valueLines value,
    weave_valueLines value, one_lt_length_valueLines_iff⟩

/-- Fields stay on their lines, and empty texts go. -/
example : valueLines [.text "a\r", .text "\nb ", .field 1 "x", .text "\r\n"] =
    [[.text "a"], [], [.text "b ", .field 1 "x"], []] := by cbv

end Markup

end Scaffold

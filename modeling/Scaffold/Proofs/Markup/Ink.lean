import Mathlib.Data.List.Basic
import Mathlib.Data.List.TakeWhile
import Scaffold.Markup.Page
import Scaffold.Proofs.Text.Lines
import Scaffold.Text.Blank
/-!
The ink of a text is what is left of it without white space.  Line breaks and
indentation add no ink, so on a page whose layout is blank every writing step
adds exactly the ink of what it is asked to write, wherever it begins lines.
-/
namespace Scaffold.Markup

/-- The characters of a text that are no blanks, in their order. -/
def ink (s : String) : List Char := s.toList.filter (!Text.isBlank ·)

@[simp] theorem ink_empty : ink "" = [] := rfl

@[simp] theorem ink_append (s t : String) : ink (s ++ t) = ink s ++ ink t := by
  simp [ink]

theorem ink_ofList (cs : List Char) :
    ink (String.ofList cs) = cs.filter (!Text.isBlank ·) := by
  simp [ink]

theorem ink_join (ss : List String) :
    ink (String.join ss) = ss.flatMap ink := by
  induction ss with
  | nil => rfl
  | cons s ss ih => rw [String.join_cons, ink_append, ih, List.flatMap_cons]

theorem ink_eq_nil_iff {s : String} :
    ink s = [] ↔ Text.isAllBlank s = true := by
  simp [ink, Text.isAllBlank]

/-- Blanks in front are no ink. -/
theorem ink_dropBlanks (s : String) :
    ink (String.ofList (Text.dropBlanks s.toList)) = ink s := by
  have hblank : (s.toList.takeWhile Text.isBlank).filter
      (!Text.isBlank ·) = [] := by
    rw [List.filter_eq_nil_iff]
    intro c hc
    simp [List.all_eq_true.1 List.all_takeWhile c hc]
  calc ink (String.ofList (Text.dropBlanks s.toList))
      = (s.toList.dropWhile Text.isBlank).filter (!Text.isBlank ·) :=
        ink_ofList _
    _ = (s.toList.takeWhile Text.isBlank ++
      s.toList.dropWhile Text.isBlank).filter
          (!Text.isBlank ·) := by
            rw [List.filter_append, hblank, List.nil_append]
    _ = ink s := by rw [List.takeWhile_append_dropWhile, ink]

/-- Trimming takes no ink from a text. -/
theorem ink_trim (s : String) : ink (Text.trim s) = ink s := by
  have hback : ∀ cs : List Char,
      (Text.dropBlanks cs.reverse).reverse.filter (!Text.isBlank ·) =
      cs.filter (!Text.isBlank ·) := fun cs => by
    have hdrop := ink_dropBlanks (String.ofList cs.reverse)
    rw [String.toList_ofList, ink_ofList, ink_ofList] at hdrop
    rw [← List.reverse_reverse cs, List.filter_reverse, List.filter_reverse,
      List.reverse_reverse, hdrop]
  rw [Text.trim, Text.trimChars, ink_ofList, hback, ← ink_ofList,
    ink_dropBlanks]

theorem trim_eq_empty_iff {s : String} : Text.trim s = "" ↔ ink s = [] := by
  constructor
  · intro h
    rw [← ink_trim, h]
    rfl
  · intro h
    rw [ink_eq_nil_iff, Text.isAllBlank, List.all_eq_true] at h
    have hfront : Text.dropBlanks s.toList = [] := List.dropWhile_eq_nil_iff.2 h
    rw [Text.trim, Text.trimChars, hfront]
    rfl

/-- Cutting a text into lines takes only breaks out of it, and breaks are
blanks. -/
theorem filter_flatten_lineChars (cs : List Char) :
    (Text.lineChars cs).flatten.filter (!Text.isBlank ·) =
      cs.filter (!Text.isBlank ·) := by
  have hreturn : Text.isBlank '\r' = true := by decide
  have hfeed : Text.isBlank '\n' = true := by decide
  fun_induction Text.lineChars cs with
  | case1 => rfl
  | case2 cs ih => simpa [hreturn, hfeed] using ih
  | case3 cs _ ih => simpa [hreturn] using ih
  | case4 cs ih => simpa [hfeed] using ih
  | case5 c cs _ _ _ hnone => exact absurd hnone (Text.lineChars_ne_nil cs)
  | case6 c cs _ _ _ line lines hlines ih =>
    rw [hlines] at ih
    simp [List.filter_cons, ← ih]

theorem flatMap_ink_lines (s : String) :
    (Text.lines s).flatMap ink = ink s := by
  rw [ink, ← filter_flatten_lineChars, Text.lines, List.flatMap_map,
    List.filter_flatten, List.flatMap]
  congr 1
  exact List.map_congr_left fun cs _ => ink_ofList cs

/-- Cutting a text at line feeds takes no ink from it. -/
theorem filter_flatten_splitChars (cs : List Char) :
    (Text.splitChars (· == '\n') cs).flatten.filter (!Text.isBlank ·) =
      cs.filter (!Text.isBlank ·) := by
  have hfeed : Text.isBlank '\n' = true := by decide
  induction cs with
  | nil => rfl
  | cons c cs ih =>
      obtain ⟨part, parts, hparts⟩ :=
        List.exists_cons_of_ne_nil (Text.splitChars_ne_nil (· == '\n') cs)
      rw [hparts] at ih
      rw [Text.splitChars, hparts]
      by_cases hc : c = '\n'
      · subst hc
        simpa [hfeed] using ih
      · simp only [beq_iff_eq, hc, if_false]
        rw [List.flatten_cons, List.cons_append, List.filter_cons,
          List.filter_cons, ← ih, List.flatten_cons]

theorem filter_dropReturn (line : List Char) :
    (Text.dropReturn line).filter (!Text.isBlank ·) =
      line.filter (!Text.isBlank ·) := by
  rw [Text.dropReturn]
  split
  · next hreturn =>
      have hline := List.dropLast_append_getLast? '\r' (by simpa using hreturn)
      conv_rhs => rw [← hline, List.filter_append]
      have hblank : Text.isBlank '\r' = true := by decide
      simp [hblank]
  · rfl

theorem flatMap_ink_feedLines (s : String) :
    (Text.feedLines s).flatMap ink = ink s := by
  have hparts := Text.splitChars_ne_nil (· == '\n') s.toList
  obtain ⟨front, last, hsplit⟩ : ∃ front last,
      Text.splitChars (· == '\n') s.toList = front ++ [last] :=
    ⟨_, _, (List.dropLast_append_getLast hparts).symm⟩
  have hlast : (if last.isEmpty then [] else [last]).flatten = last := by
    cases last <;> simp
  have hfront : (front.map Text.dropReturn).flatten.filter (!Text.isBlank ·) =
      front.flatten.filter (!Text.isBlank ·) := by
    rw [List.filter_flatten, List.filter_flatten, List.map_map]
    exact congrArg List.flatten (List.map_congr_left fun line _ =>
      filter_dropReturn line)
  have hchars : (Text.feedLines s).flatMap ink =
      (front.map Text.dropReturn ++
        if last.isEmpty then [] else [last]).flatten.filter
          (!Text.isBlank ·) := by
    rw [Text.feedLines, hsplit, List.dropLast_concat, List.getLast?_concat,
      List.filter_flatten, List.flatMap_map, List.flatMap]
    exact congrArg List.flatten (List.map_congr_left fun line _ =>
      ink_ofList line)
  have hwhole : (front.flatten ++ last).filter (!Text.isBlank ·) = ink s := by
    rw [ink, ← filter_flatten_splitChars s.toList, hsplit, List.flatten_append,
      List.flatten_singleton]
  rw [hchars, List.flatten_append, List.filter_append, hlast, hfront,
    ← List.filter_append, hwhole]

/-- The plain texts of pieces hold all the ink of the pieces. -/
theorem ink_plainText_cons (piece : Piece) (ps : List Piece) :
    ink (Piece.plainText (piece :: ps)) = ink piece.plain ++
      ink (Piece.plainText ps) := by
  simp [Piece.plainText, ink_join]

@[simp] theorem ink_plainText_nil : ink (Piece.plainText []) = [] := rfl

/-- A configuration that adds nothing but blanks of its own: texts and fields
are written as they are, and lines begin with white space. -/
structure AddsOnlyBlanks (c : Config) : Prop where
  hooks : c.hooks = {}
  indent : Text.isAllBlank c.options.indent = true
  baseIndent : Text.isAllBlank c.options.baseIndent = true
  newline : Text.isAllBlank c.options.newline = true

namespace Page

def ink (p : Page) : List Char := Markup.ink p.out.text

@[simp] theorem ink_shift (p : Page) (n : Int) : (p.shift n).ink = p.ink := rfl

variable {c : Config}

theorem ink_newline (h : AddsOnlyBlanks c) (p : Page) (n : Int) :
    (p.newline c n).ink = p.ink := by
  have hindent := ink_eq_nil_iff.2 h.indent
  have hunits : Markup.ink
      (String.join (List.replicate n.toNat c.options.indent)) = [] := by
    rw [ink_join, List.flatMap_replicate, hindent]
    simp
  simp only [newline, ink, Output.newline]
  split <;>
    simp [Output.raw, Output.indent, hunits, ink_eq_nil_iff.2 h.newline,
      ink_eq_nil_iff.2 h.baseIndent]

theorem ink_freshLine (h : AddsOnlyBlanks c) (p : Page) :
    (p.freshLine c).ink = p.ink :=
  ink_newline h p p.out.level

theorem ink_push (h : AddsOnlyBlanks c) (p : Page) (s : String) :
    (p.push c s).ink = p.ink ++ Markup.ink s := by
  simp [push, ink, Output.push, Output.raw, h.hooks]

theorem ink_lines (h : AddsOnlyBlanks c) (p : Page) (ss : List String) :
    ink { p with out := p.out.lines c.options c.hooks ss } =
      p.ink ++ ss.flatMap Markup.ink := by
  induction ss generalizing p with
  | nil => simp [Output.lines]
  | cons s rest ih =>
    have hpush := ink_push h p s
    cases rest with
    | nil =>
      rw [List.flatMap_singleton]
      exact hpush
    | cons t rest =>
      have hbreak := ink_newline h (p.push c s) p.out.level
      have hrest := ih ((p.push c s).newline c p.out.level)
      rw [hbreak, hpush, List.append_assoc, ← List.flatMap_cons] at hrest
      exact hrest

theorem ink_string (h : AddsOnlyBlanks c) (p : Page) (s : String) :
    (p.string c s).ink = p.ink ++ Markup.ink s := by
  rw [string, Output.string, ink_lines h, flatMap_ink_lines]

theorem ink_piece (h : AddsOnlyBlanks c) (p : Page) (piece : Piece) :
    (Page.piece c p piece).ink = p.ink ++ Markup.ink piece.plain := by
  cases piece with
  | text s => exact ink_string h p s
  | field index name =>
    simp [Page.piece, count, ink, Output.field, Output.raw, h.hooks,
      Piece.plain]

theorem ink_pieces (h : AddsOnlyBlanks c) (p : Page) (ps : List Piece) :
    (p.pieces c ps).ink = p.ink ++ Markup.ink (Piece.plainText ps) := by
  have hfold : ∀ p : Page, (ps.foldl (Page.piece c) p).ink =
      p.ink ++ Markup.ink (Piece.plainText ps) := by
    induction ps with
    | nil => simp
    | cons piece ps ih =>
      intro p
      rw [List.foldl_cons, ih, ink_piece h, ink_plainText_cons,
        List.append_assoc]
  rw [pieces]
  split <;> exact hfold p

/-- Lines of its own do not change what is written on them. -/
theorem ink_onOwnLines (h : AddsOnlyBlanks c) (wanted : Bool)
    {write : Page → Page} {text : List Char}
    (hwrite : ∀ p, (write p).ink = p.ink ++ text) (p : Page) :
    (p.onOwnLines c wanted write).ink = p.ink ++ text := by
  rw [onOwnLines]
  split
  · rw [ink_freshLine h, ink_shift, hwrite, ink_freshLine h, ink_shift]
  · exact hwrite p

end Page

end Scaffold.Markup

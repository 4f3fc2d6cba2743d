import Mathlib.Data.List.Forall2
import Scaffold.Proofs.Markup.Adding
import Scaffold.Proofs.Text.Blank
/-!
Texts as they get written.  A text of several lines is written with the line
breaks of the layout in place of its own, whatever level it is at; a text of one
line is written as it is, and where the breaks of the layout are blank, all
texts keep their words.
-/
namespace Scaffold.Markup

/-- A text as it gets written: any of its line breaks may be replaced by one of
the layout. -/
inductive Relaid (o : Options) : List Char → List Char → Prop
  | nil : Relaid o [] []
  | keep {cs ds : List Char} (c : Char) (rest : Relaid o cs ds) :
    Relaid o (c :: cs) (c :: ds)
  | broken {cs ds mark : List Char} (level : Nat)
      (isMark : mark ∈ [['\r', '\n'], ['\r'], ['\n']]) (rest : Relaid o cs ds) :
      Relaid o (mark ++ cs) ((lineBreak o level).toList ++ ds)

namespace Relaid

variable {o : Options} {cs ds es fs : List Char}

theorem refl (o : Options) (cs : List Char) : Relaid o cs cs := by
  induction cs with
  | nil => exact .nil
  | cons c cs ih => exact .keep c ih

theorem append (h : Relaid o cs ds) (h' : Relaid o es fs) :
    Relaid o (cs ++ es) (ds ++ fs) := by
  induction h with
  | nil => exact h'
  | keep c _ ih => exact .keep c ih
  | broken level isMark _ ih =>
      rw [List.append_assoc, List.append_assoc]
      exact .broken level isMark ih

/-- A text of one line is written as it is. -/
theorem eq_of_noBreak (h : Relaid o cs ds)
    (noBreak : ∀ c ∈ cs, Text.isBreak c = false) : ds = cs := by
  induction h with
  | nil => rfl
  | keep c _ ih => rw [ih fun d hd => noBreak d (List.mem_cons_of_mem c hd)]
  | broken level isMark _ _ =>
      simp only [List.mem_cons, List.not_mem_nil, or_false] at isMark
      rcases isMark with rfl | rfl | rfl
      · exact absurd (noBreak '\r' (by simp)) (by decide)
      · exact absurd (noBreak '\r' (by simp)) (by decide)
      · exact absurd (noBreak '\n' (by simp)) (by decide)

/-- What is in neither a text nor the layout does not get written. -/
theorem not_mem {c : Char} (h : Relaid o cs ds) (hc : c ∉ cs)
    (hbreak : ∀ level, c ∉ (lineBreak o level).toList) : c ∉ ds := by
  induction h with
  | nil => exact hc
  | keep d _ ih =>
      rw [List.mem_cons, not_or] at hc ⊢
      exact ⟨hc.1, ih hc.2⟩
  | broken level _ _ ih =>
      rw [List.mem_append, not_or] at hc ⊢
      exact ⟨hbreak level, ih hc.2⟩

/-- The same words get written if a line break of the layout is blank. -/
theorem wordsFrom_eq (h : Relaid o cs ds)
    (blank : ∀ level, ∀ b ∈ (lineBreak o level).toList, Text.isBlank b = true)
    (nonempty : ∀ level, (lineBreak o level).toList ≠ []) (word : List Char) :
    Text.wordsFrom word ds = Text.wordsFrom word cs := by
  induction h generalizing word with
  | nil => rfl
  | keep c _ ih => simp only [Text.wordsFrom, ih]
  | broken level isMark _ ih =>
      have hreturn : Text.isBlank '\r' = true := by decide
      have hfeed : Text.isBlank '\n' = true := by decide
      simp only [List.mem_cons, List.not_mem_nil, or_false] at isMark
      rw [Text.wordsFrom_append_of_blank (nonempty level) (blank level), ih,
        Text.wordsFrom_append_of_blank]
      · rcases isMark with rfl | rfl | rfl <;> simp
      · rcases isMark with rfl | rfl | rfl <;> simp [hreturn, hfeed]

/-- The lines of a text with breaks of the layout between them. -/
theorem join_lineChars (o : Options) (level : Nat) (cs : List Char) :
    Relaid o cs (Text.join (lineBreak o level)
      ((Text.lineChars cs).map String.ofList)).toList := by
  have hbroken (mark : List Char) {cs : List Char}
      (hmark : mark ∈ [['\r', '\n'], ['\r'], ['\n']])
      (ih : Relaid o cs (Text.join (lineBreak o level)
      ((Text.lineChars cs).map String.ofList)).toList) :
      Relaid o (mark ++ cs)
        (Text.join (lineBreak o level)
          (([] :: Text.lineChars cs).map String.ofList)).toList := by
    obtain ⟨line, lines, hlines⟩ :=
      List.exists_cons_of_ne_nil (Text.lineChars_ne_nil cs)
    rw [hlines] at ih ⊢
    simpa [Text.join] using broken level hmark ih
  fun_induction Text.lineChars cs with
  | case1 => exact .nil
  | case2 cs ih => exact hbroken ['\r', '\n'] (by simp) ih
  | case3 cs _ ih => exact hbroken ['\r'] (by simp) ih
  | case4 cs ih => exact hbroken ['\n'] (by simp) ih
  | case5 c cs _ _ _ hnone => exact absurd hnone (Text.lineChars_ne_nil cs)
  | case6 c cs _ _ _ line lines hlines ih =>
      rw [hlines] at ih
      have hkeep := keep c ih
      cases lines with
      | nil => simpa [Text.join] using hkeep
      | cons next lines => simpa [Text.join] using hkeep

end Relaid

/-- A text as it is laid out at a level: what the hook makes of its lines, with
breaks of the layout between them. -/
def laid (c : Config) (level : Nat) (s : String) : String :=
  Text.join (lineBreak c.options level) ((Text.lines s).map c.hooks.text)

/-- A text gets written as another one. -/
def WrittenAs (o : Options) (s t : String) : Prop := Relaid o s.toList t.toList

namespace Page

variable {c : Config}

/-- Lines are written as the hook makes them, with breaks of the layout between
them. -/
theorem adds_hookedLines (c : Config) (p : Page) {ss : List String}
    (hne : ss ≠ []) :
    p.Adds { p with out := p.out.lines c.options c.hooks ss }
      (Text.join (lineBreak c.options p.out.level.toNat)
        (ss.map c.hooks.text)) := by
  induction ss generalizing p with
  | nil => exact absurd rfl hne
  | cons s rest ih =>
    have hpushed : p.Adds (p.push c s) (c.hooks.text s) := ⟨rfl, rfl⟩
    cases rest with
    | nil => exact hpushed
    | cons t rest =>
      have hbreak := adds_newline c (p.push c s) p.out.level
      have hrest :=
        ih ((p.push c s).newline c p.out.level) (List.cons_ne_nil t rest)
      have hlevel : ((p.push c s).newline c p.out.level).out.level =
          p.out.level :=
        hbreak.level
      rw [hlevel] at hrest
      exact (hpushed.trans hbreak).trans hrest

/-- Lines are written with breaks of the layout between them. -/
theorem adds_lines (plain : ∀ s, c.hooks.text s = s) (p : Page)
    {ss : List String} (hne : ss ≠ []) :
    p.Adds { p with out := p.out.lines c.options c.hooks ss }
      (Text.join (lineBreak c.options p.out.level.toNat) ss) := by
  have hlines := adds_hookedLines c p hne
  rwa [List.map_id'' plain] at hlines

/-- A text is written as it is laid out at the level of the page. -/
theorem adds_laid_toNat (c : Config) (p : Page) (s : String) :
    p.Adds (p.string c s) (laid c p.out.level.toNat s) :=
  adds_hookedLines c p (Text.lines_ne_nil s)

theorem adds_laid (c : Config) (p : Page) (s : String) {level : Nat}
    (hlevel : p.out.level = level) :
    p.Adds (p.string c s) (laid c level s) := by
  have hlaid := adds_laid_toNat c p s
  rwa [hlevel, Int.toNat_natCast] at hlaid

theorem exists_adds_string (plain : ∀ s, c.hooks.text s = s) (p : Page)
    (s : String) : ∃ t, p.Adds (p.string c s) t ∧ WrittenAs c.options s t :=
  ⟨_, adds_lines plain p (Text.lines_ne_nil s), .join_lineChars _ _ s.toList⟩

theorem exists_adds_piece (hooks : c.hooks = {}) (p : Page) (x : Piece) :
    ∃ t, p.Adds (piece c p x) t ∧ WrittenAs c.options x.plain t := by
  cases x with
  | text s => exact exists_adds_string (by simp [hooks]) p s
  | field index name =>
    have hname : c.hooks.field (p.fieldBase + index) name = name := by
      rw [hooks]
    exact ⟨name, ⟨by rw [piece, Output.field, Output.raw, hname], rfl⟩,
      .refl _ _⟩

theorem exists_adds_pieces (hooks : c.hooks = {}) (p : Page) (ps : List Piece) :
    ∃ t, p.Adds (p.pieces c ps) t ∧
    WrittenAs c.options (Piece.plainText ps) t := by
  suffices h : ∃ t, p.Adds (ps.foldl (piece c) p) t ∧
      WrittenAs c.options (Piece.plainText ps) t by
    obtain ⟨t, hadds, hwritten⟩ := h
    exact ⟨t, hadds.pieces_of_foldl, hwritten⟩
  induction ps generalizing p with
  | nil => exact ⟨"", .refl p, .nil⟩
  | cons x ps ih =>
    obtain ⟨t, hadds, hwritten⟩ := exists_adds_piece hooks p x
    obtain ⟨t', hadds', hwritten'⟩ := ih (piece c p x)
    refine ⟨t ++ t', hadds.trans hadds', ?_⟩
    rw [WrittenAs, String.toList_append, Piece.plainText, List.map_cons,
      String.join_cons, String.toList_append]
    exact Relaid.append hwritten hwritten'

end Page

section

variable {o : Options}

/-- A line break of the layout is there and blank. -/
structure BreaksBlankly (o : Options) : Prop where
  newline : Text.isAllBlank o.newline = true
  baseIndent : Text.isAllBlank o.baseIndent = true
  indent : Text.isAllBlank o.indent = true
  nonempty : o.newline ++ o.baseIndent ≠ ""

theorem BreaksBlankly.isBlank_of_mem (h : BreaksBlankly o) (level : Nat) :
    ∀ b ∈ (lineBreak o level).toList, Text.isBlank b = true := by
  have hnewline := List.all_eq_true.1 h.newline
  have hbase := List.all_eq_true.1 h.baseIndent
  have hindent := List.all_eq_true.1 h.indent
  intro b hb
  simp only [lineBreak, String.toList_append, String.toList_join,
    List.mem_append, List.mem_flatMap, List.mem_replicate] at hb
  rcases hb with (hb | hb) | ⟨unit, ⟨-, rfl⟩, hb⟩
  · exact hnewline b hb
  · exact hbase b hb
  · exact hindent b hb

theorem BreaksBlankly.lineBreak_ne_nil (h : BreaksBlankly o) (level : Nat) :
    (lineBreak o level).toList ≠ [] := by
  have hnonempty := h.nonempty
  simp only [lineBreak, String.toList_append, ne_eq, List.append_eq_nil_iff]
  rintro ⟨⟨hnewline, hbase⟩, -⟩
  exact hnonempty (by simp_all)

namespace WrittenAs

variable {s t : String}

/-- A text of one line is written as it is. -/
theorem eq_of_line (h : WrittenAs o s t) (hline : Text.hasBreak s = false) :
    t = s := by
  have hbreaks : ∀ c ∈ s.toList, Text.isBreak c = false := by
    simpa [Text.hasBreak] using hline
  exact String.toList_inj.1 (h.eq_of_noBreak hbreaks)

/-- A text of one or more lines is written with the same words. -/
theorem words_eq (h : WrittenAs o s t)
    (hbreaks : Text.hasBreak s = true → BreaksBlankly o) :
    Text.words t = Text.words s := by
  by_cases hline : Text.hasBreak s = true
  · have hblank := hbreaks hline
    rw [Text.words, Text.words,
      h.wordsFrom_eq hblank.isBlank_of_mem hblank.lineBreak_ne_nil]
  · rw [h.eq_of_line (Bool.not_eq_true _ |>.mp hline)]

end WrittenAs

variable {ss ts : List String}

theorem eq_of_writtenAs (h : List.Forall₂ (WrittenAs o) ss ts)
    (hlines : ∀ s ∈ ss, Text.hasBreak s = false) : ts = ss := by
  induction h with
  | nil => rfl
  | cons hwritten _ ih =>
    rw [List.forall_mem_cons] at hlines
    rw [hwritten.eq_of_line hlines.1, ih hlines.2]

theorem flatMap_words_of_writtenAs (h : List.Forall₂ (WrittenAs o) ss ts)
    (hbreaks : ∀ s ∈ ss, Text.hasBreak s = true → BreaksBlankly o) :
    ts.flatMap Text.words = ss.flatMap Text.words := by
  induction h with
  | nil => rfl
  | cons hwritten _ ih =>
    rw [List.forall_mem_cons] at hbreaks
    rw [List.flatMap_cons, List.flatMap_cons, hwritten.words_eq hbreaks.1,
      ih hbreaks.2]

end

end Scaffold.Markup

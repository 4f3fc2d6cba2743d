import Scaffold.Markup.Page
/-!
Writing in strokes.  What is written to a page is a row of strokes: texts, and
fields with the index that they are given.  The row depends on the level and on
the base of the page it is written to, and not on what the hook makes of a
field.  Writers are put together, and so are their strokes, the values whose
fields they number and the sums that this comes to.  Main statement:
`Draws.append`, with one lemma for each writer.
-/
namespace Scaffold

def Piece.fields (ps : List Piece) : List (Nat × String) :=
  ps.filterMap fun
    | .text _ => none
    | .field index name => some (index, name)

theorem Piece.fields_append (ps qs : List Piece) :
    fields (ps ++ qs) = fields ps ++ fields qs :=
  List.filterMap_append

/-- The same configuration with another hook for fields. -/
def Config.withField (c : Config) (field : Nat → String → String) : Config :=
  { c with hooks := { c.hooks with field } }

@[simp]
theorem Config.options_withField (c : Config) (field : Nat → String → String) :
    (c.withField field).options = c.options := rfl

namespace Markup

def inked (field : Nat → String → String) (strokes : List Piece) : String :=
  String.join (strokes.map fun
    | .text s => s
    | .field index name => field index name)

theorem inked_append (field : Nat → String → String) (ps qs : List Piece) :
    inked field (ps ++ qs) = inked field ps ++ inked field qs := by
  rw [inked, List.map_append, String.join_append]
  rfl

/-! ### Numbers -/

/-- The number of indices that a value takes. -/
def reach (value : List Piece) : Nat :=
  match largestIndex value with
  | none => 0
  | some largest => largest + 1

/-- The number of indices that values take. -/
def totalReach : List (List Piece) → Nat
  | [] => 0
  | value :: rest => reach value + totalReach rest

/-- The fields of values, each with its own index added to what the values in
front take. -/
def numbered (base : Nat) : List (List Piece) → List (Nat × String)
  | [] => []
  | value :: rest =>
      (Piece.fields value).map (fun (index, name) => (base + index, name)) ++
        numbered (base + reach value) rest

/-- The sums that a value comes to: one for each field, and behind a value with
fields what it takes and the new base. -/
def valueAdditions (base : Nat) (value : List Piece) : List Nat :=
  (Piece.fields value).map (fun (index, _) => base + index) ++
    match largestIndex value with
    | none => []
    | some largest => [largest + 1, base + (largest + 1)]

/-- The sums that numbering comes to. -/
def additions (base : Nat) : List (List Piece) → List Nat
  | [] => []
  | value :: rest =>
      valueAdditions base value ++ additions (base + reach value) rest

theorem totalReach_append (vs ws : List (List Piece)) :
    totalReach (vs ++ ws) = totalReach vs + totalReach ws := by
  induction vs with
  | nil => exact (Nat.zero_add _).symm
  | cons v vs ih =>
      rw [List.cons_append, totalReach, totalReach, ih, Nat.add_assoc]

theorem numbered_append (base : Nat) (vs ws : List (List Piece)) :
    numbered base (vs ++ ws) =
      numbered base vs ++ numbered (base + totalReach vs) ws := by
  induction vs generalizing base with
  | nil => rfl
  | cons v vs ih =>
      rw [List.cons_append, numbered, numbered, ih, List.append_assoc,
        totalReach, Nat.add_assoc]

theorem additions_append (base : Nat) (vs ws : List (List Piece)) :
    additions base (vs ++ ws) =
      additions base vs ++ additions (base + totalReach vs) ws := by
  induction vs generalizing base with
  | nil => rfl
  | cons v vs ih =>
      rw [List.cons_append, additions, additions, ih, List.append_assoc,
        totalReach, Nat.add_assoc]

/-! ### Strokes -/

/-- A page has what another one has, and strokes behind it that go over some
lines. -/
structure Page.Gains (field : Nat → String → String) (p q : Page)
    (strokes : List Piece) (lines : Nat) : Prop where
  text : q.out.text = p.out.text ++ inked field strokes
  level : q.out.level = p.out.level
  line : q.out.line = p.out.line + lines

theorem Page.Gains.refl (field : Nat → String → String) (p : Page) :
    Gains field p p [] 0 :=
  ⟨String.append_empty.symm, rfl, rfl⟩

theorem Page.Gains.trans {field : Nat → String → String} {p q r : Page}
    {s t : List Piece} {m n : Nat} (h : Gains field p q s m)
    (h' : Gains field q r t n) : Gains field p r (s ++ t) (m + n) :=
  ⟨by rw [h'.text, h.text, inked_append, String.append_assoc],
    h'.level.trans h.level, by rw [h'.line, h.line, Nat.add_assoc]⟩

/-- A page has counted the fields of values behind what another one has: its
base is behind them, and it still fits if all sums do. -/
structure Page.Counts (p q : Page) (values : List (List Piece)) : Prop where
  base : q.fieldBase = p.fieldBase + totalReach values
  fits : q.fits = true ↔ p.fits = true ∧
    ∀ sum ∈ additions p.fieldBase values, sum ≤ Numeral.wordMax

theorem Page.Counts.of_eq {p q : Page} (base : q.fieldBase = p.fieldBase)
    (fits : q.fits = p.fits) : p.Counts q [] :=
  ⟨base, by rw [fits]; simp [additions]⟩

theorem Page.Counts.trans {p q r : Page} {vs ws : List (List Piece)}
    (h : p.Counts q vs) (h' : q.Counts r ws) : p.Counts r (vs ++ ws) := by
  refine ⟨by rw [h'.base, h.base, totalReach_append, Nat.add_assoc], ?_⟩
  rw [h'.fits, h.fits, h.base, additions_append, List.forall_mem_append,
    and_assoc]

/-- Writing for any hook for fields. -/
abbrev Writer := (Nat → String → String) → Page → Page

/-- A writer draws the same strokes with every hook that agrees on whether the
place of an empty element shows, if the pages have one level and base.  The
fields among them are those of the given values. -/
def Draws (empty : Bool) (write : Writer) (values : List (List Piece)) : Prop :=
  ∀ level base, ∃ strokes lines, Piece.fields strokes = numbered base values ∧
    ∀ field : Nat → String → String, (field 0 "").isEmpty = empty →
      ∀ p : Page, p.out.level = level → p.fieldBase = base →
        p.Gains field (write field p) strokes lines ∧
          p.Counts (write field p) values

namespace Draws

variable {empty : Bool} {write write' : Writer}
    {values values' : List (List Piece)}

theorem nothing (empty : Bool) : Draws empty (fun _ p => p) [] :=
  fun _ _ => ⟨[], 0, rfl, fun field _ p _ _ => ⟨.refl field p, .of_eq rfl rfl⟩⟩

theorem append (h : Draws empty write values)
    (h' : Draws empty write' values') :
    Draws empty (fun field p => write' field (write field p))
      (values ++ values') := by
  intro level base
  obtain ⟨strokes, lines, hfields, hwrite⟩ := h level base
  obtain ⟨strokes', lines', hfields', hwrite'⟩ :=
    h' level (base + totalReach values)
  refine ⟨strokes ++ strokes', lines + lines', ?_, ?_⟩
  · rw [Piece.fields_append, hfields, hfields', numbered_append]
  · intro field hempty p hlevel hbase
    obtain ⟨hgains, hcounts⟩ := hwrite field hempty p hlevel hbase
    obtain ⟨hgains', hcounts'⟩ := hwrite' field hempty (write field p)
      (hgains.level.trans hlevel) (by rw [hcounts.base, hbase])
    exact ⟨hgains.trans hgains', hcounts.trans hcounts'⟩

/-- Behind something without fields. -/
theorem behind (h : Draws empty write []) (h' : Draws empty write' values) :
    Draws empty (fun field p => write' field (write field p)) values :=
  h.append h'

/-- In front of something without fields. -/
theorem inFront (h : Draws empty write values) (h' : Draws empty write' []) :
    Draws empty (fun field p => write' field (write field p)) values := by
  have hboth := h.append h'
  rwa [List.append_nil] at hboth

theorem shift (h : Draws empty write values) (n : Int) :
    Draws empty (fun field p => (write field (p.shift n)).shift (-n))
      values := by
  intro level base
  obtain ⟨strokes, lines, hfields, hwrite⟩ := h (level + n) base
  refine ⟨strokes, lines, hfields, ?_⟩
  intro field hempty p hlevel hbase
  obtain ⟨hgains, hcounts⟩ :=
    hwrite field hempty (p.shift n) (congrArg (· + n) hlevel) hbase
  refine ⟨⟨hgains.text, ?_, hgains.line⟩, ⟨hcounts.base, hcounts.fits⟩⟩
  have hinside : (write field (p.shift n)).out.level = p.out.level + n :=
    hgains.level
  change (write field (p.shift n)).out.level + -n = p.out.level
  omega

theorem foldl {α : Type} {each : (Nat → String → String) → Page → α → Page}
    {drawn : α → List (List Piece)}
    (h : ∀ x, Draws empty (fun field p => each field p x) (drawn x))
    (xs : List α) :
    Draws empty (fun field p => xs.foldl (each field) p)
      (xs.flatMap drawn) := by
  induction xs with
  | nil => exact nothing empty
  | cons x xs ih => exact (h x).append ih

/-- A writer that does the same with every hook that is in question. -/
theorem congr (h : Draws empty write values)
    (hwrite : ∀ field : Nat → String → String, (field 0 "").isEmpty = empty →
      write' field = write field) : Draws empty write' values := by
  intro level base
  obtain ⟨strokes, lines, hfields, hall⟩ := h level base
  refine ⟨strokes, lines, hfields, ?_⟩
  intro field hempty p hlevel hbase
  rw [hwrite field hempty]
  exact hall field hempty p hlevel hbase

/-- Values whose fields are numbered alike. -/
theorem renumber (h : Draws empty write values)
    (hnumbered : ∀ base, numbered base values = numbered base values')
    (hadditions : ∀ base, additions base values = additions base values')
    (htotal : totalReach values = totalReach values') :
    Draws empty write values' := by
  intro level base
  obtain ⟨strokes, lines, hfields, hwrite⟩ := h level base
  refine ⟨strokes, lines, hfields.trans (hnumbered base), ?_⟩
  intro field hempty p hlevel hbase
  obtain ⟨hgains, hcounts⟩ := hwrite field hempty p hlevel hbase
  exact ⟨hgains, by rw [hcounts.base, htotal],
    by rw [hcounts.fits, hadditions]⟩

end Draws

/-! ### Writing to the page -/

section Page

variable (c : Config) (empty : Bool)

theorem draws_push (s : String) :
    Draws empty (fun field p => p.push (c.withField field) s) [] :=
  fun _ _ => ⟨[.text (c.hooks.text s)], 0, rfl, fun field _ p _ _ =>
    ⟨⟨by simp [Page.push, Output.push, Output.raw, inked, Config.withField],
      rfl, rfl⟩, .of_eq rfl rfl⟩⟩

/-- A line break, with an indentation that depends on the level. -/
theorem draws_newline (indentation : Int → Int) :
    Draws empty (fun field p =>
      p.newline (c.withField field) (indentation p.out.level)) [] := by
  intro level base
  refine ⟨[.text (c.options.newline ++ c.options.baseIndent ++ String.join
    (List.replicate (indentation level).toNat c.options.indent))], 1, rfl, ?_⟩
  intro field _ p hlevel _
  refine ⟨?_, .of_eq rfl rfl⟩
  dsimp only
  rw [Page.newline, Output.newline, hlevel]
  by_cases hpos : 0 < indentation level
  · rw [if_pos hpos]
    exact ⟨by simp [Output.indent, Output.raw, inked, Config.withField,
      String.append_assoc], rfl, rfl⟩
  · have hnone : (indentation level).toNat = 0 := by omega
    rw [if_neg hpos, hnone]
    exact ⟨by simp [Output.raw, inked, Config.withField], rfl, rfl⟩

theorem draws_freshLine :
    Draws empty (fun field p => p.freshLine (c.withField field)) [] :=
  draws_newline c empty id

theorem draws_lines (ss : List String) :
    Draws empty (fun field p =>
      { p with
        out := p.out.lines c.options (c.withField field).hooks ss }) [] := by
  match ss with
  | [] => exact .nothing empty
  | [s] => exact draws_push c empty s
  | s :: t :: rest =>
      exact (draws_push c empty s).behind
        ((draws_freshLine c empty).behind (draws_lines (t :: rest)))

theorem draws_string (s : String) :
    Draws empty (fun field p => p.string (c.withField field) s) [] :=
  draws_lines c empty (Text.lines s)

/-- One piece of a value; the base stays the same for all of them. -/
theorem draws_piece (level : Int) (base : Nat) (x : Piece) :
    ∃ strokes lines,
      Piece.fields strokes =
        (Piece.fields [x]).map (fun (index, name) => (base + index, name)) ∧
      ∀ field : Nat → String → String, (field 0 "").isEmpty = empty →
        ∀ p : Page, p.out.level = level → p.fieldBase = base →
          p.Gains field (p.piece (c.withField field) x) strokes lines := by
  cases x with
  | text s =>
      obtain ⟨strokes, lines, hfields, hwrite⟩ :=
        draws_string c empty s level base
      exact ⟨strokes, lines, hfields, fun field hempty p hlevel hbase =>
        (hwrite field hempty p hlevel hbase).1⟩
  | field index name =>
      refine ⟨[.field (base + index) name], 0, rfl, ?_⟩
      intro field _ p _ hbase
      refine ⟨?_, rfl, rfl⟩
      simp [Page.piece, Page.count, Output.field, Output.raw, inked,
        Config.withField, hbase]

theorem draws_allPieces (level : Int) (base : Nat) (ps : List Piece) :
    ∃ strokes lines,
      Piece.fields strokes =
        (Piece.fields ps).map (fun (index, name) => (base + index, name)) ∧
      ∀ field : Nat → String → String, (field 0 "").isEmpty = empty →
        ∀ p : Page, p.out.level = level → p.fieldBase = base →
          p.Gains field (ps.foldl (Page.piece (c.withField field)) p) strokes
            lines := by
  induction ps with
  | nil => exact ⟨[], 0, rfl, fun field _ p _ _ => .refl field p⟩
  | cons x ps ih =>
      obtain ⟨strokes, lines, hfields, hwrite⟩ :=
        draws_piece c empty level base x
      obtain ⟨strokes', lines', hfields', hwrite'⟩ := ih
      refine ⟨strokes ++ strokes', lines + lines', ?_, ?_⟩
      · rw [Piece.fields_append, hfields, hfields', ← List.map_append,
          ← Piece.fields_append, List.singleton_append]
      · intro field hempty p hlevel hbase
        have hgains := hwrite field hempty p hlevel hbase
        exact hgains.trans (hwrite' field hempty _ (hgains.level.trans hlevel)
          (by rw [Page.fieldBase_piece, hbase]))

/-- The sums that the fields of a value come to. -/
theorem fits_foldl_piece (c : Config) (p : Page) (ps : List Piece) :
    (ps.foldl (Page.piece c) p).fits = true ↔ p.fits = true ∧
      ∀ sum ∈ (Piece.fields ps).map (fun (index, _) => p.fieldBase + index),
        sum ≤ Numeral.wordMax := by
  induction ps generalizing p with
  | nil => simp [Piece.fields]
  | cons x ps ih =>
      rw [List.foldl_cons, ih, Page.fieldBase_piece]
      cases x with
      | text s => rfl
      | field index name =>
          have hhere : (p.piece c (.field index name)).fits = true ↔
              p.fits = true ∧ p.fieldBase + index ≤ Numeral.wordMax :=
            p.fits_count (p.fieldBase + index)
          have hfields : Piece.fields (.field index name :: ps) =
              (index, name) :: Piece.fields ps := rfl
          rw [hhere, hfields, List.map_cons, List.forall_mem_cons, and_assoc]

theorem counts_pieces (c : Config) (p : Page) (value : List Piece) :
    p.Counts (p.pieces c value) [value] := by
  have hbase := Page.fieldBase_foldl_piece c p value
  have hfits := fits_foldl_piece c p value
  have hreach : totalReach [value] = reach value := by
    rw [totalReach]
    rfl
  have hsums : additions p.fieldBase [value] =
      valueAdditions p.fieldBase value := by
    rw [additions, additions, List.append_nil]
  refine ⟨?_, ?_⟩
  · rw [Page.pieces, hreach, reach]
    cases largestIndex value with
    | none => exact hbase
    | some largest => exact congrArg (· + (largest + 1)) hbase
  · rw [Page.pieces, hsums, valueAdditions, List.forall_mem_append,
      ← and_assoc, ← hfits]
    cases largestIndex value with
    | none => simp
    | some largest =>
        dsimp only
        rw [Page.fits_count, Page.fits_count, hbase]
        simp [and_assoc]

/-- A value, behind which the base goes on. -/
theorem draws_pieces (value : List Piece) :
    Draws empty (fun field p => p.pieces (c.withField field) value)
      [value] := by
  intro level base
  obtain ⟨strokes, lines, hfields, hwrite⟩ :=
    draws_allPieces c empty level base value
  refine ⟨strokes, lines,
    by rw [hfields, numbered, numbered, List.append_nil], ?_⟩
  intro field hempty p hlevel hbase
  have hgains := hwrite field hempty p hlevel hbase
  refine ⟨?_, counts_pieces (c.withField field) p value⟩
  dsimp only
  rw [Page.pieces]
  cases largestIndex value with
  | none => exact hgains
  | some largest => exact ⟨hgains.text, hgains.level, hgains.line⟩

variable {c empty}

theorem Draws.onOwnLines {write : Writer} {values : List (List Piece)}
    (h : Draws empty write values) (wanted : Bool) :
    Draws empty (fun field p =>
      p.onOwnLines (c.withField field) wanted (write field)) values := by
  cases wanted with
  | false => exact h
  | true =>
      have hinside : Draws empty (fun field p =>
          write field (p.freshLine (c.withField field))) values :=
        (draws_freshLine c empty).behind h
      exact (hinside.shift 1).inFront (draws_freshLine c empty)

end Page

end Markup

end Scaffold

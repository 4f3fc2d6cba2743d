import Scaffold.Proofs.Statement.Reading
/-!
Parsing undoes printing.  A statement with all its printed lines moves the path
exactly as if the finished statement had been attached: what the walk has still
open when it reaches the last of these lines is climbed out of by the next
separator, or closed at the end.  Main statement: `parse_print_outline`.
-/
namespace Scaffold.Statement

namespace Parser

/-- What the walk does with the printed lines of a statement, whatever follows:
it comes to the tokens behind them, at the place where it would be had the
finished statement been attached. -/
def Walks (jsx : Bool) (s : Statement) : Prop :=
  ∀ (groups : List OpenGroup) (path : Path) (depth : Nat) (rest : List Line)
    (tail ts : List Token),
    Readable rest → (∀ l ∈ rest.head?, l.depth ≤ depth) → Closing tail →
    Spelled ts (join (lines depth s ++ rest) ++ tail) →
    ∃ ts', Spelled ts' (join rest ++ tail) ∧
      statementsFrom jsx groups path ts =
        statementsFrom jsx groups
          ((path.attach s).climbs (levelsUp depth rest)) ts'

theorem walks_forest {jsx : Bool} {s : Statement} {forest : List Statement}
    (outline : ∀ t ∈ s :: forest, t.IsOutline)
    (walks : ∀ t ∈ s :: forest, Walks jsx t) (groups : List OpenGroup)
    (path : Path) {depth : Nat} {rest : List Line} {tail ts : List Token}
    (hread : Readable rest) (hrest : ∀ l ∈ rest.head?, l.depth ≤ depth)
    (htail : Closing tail)
    (hts :
      Spelled ts (join (forestLines depth (s :: forest) ++ rest) ++ tail)) :
    ∃ ts', Spelled ts' (join rest ++ tail) ∧
      statementsFrom jsx groups path ts =
        statementsFrom jsx groups
          (((s :: forest).foldl Path.attach path).climbs (levelsUp depth rest))
            ts' := by
  rw [forestLines, List.append_assoc] at hts
  have hhead := walks s List.mem_cons_self groups path depth
  induction forest generalizing s path ts with
  | nil =>
      exact hhead rest tail ts hread hrest htail hts
  | cons next forest ih =>
      have htail' : ∀ t ∈ next :: forest, t ∈ s :: next :: forest :=
        fun t ht => List.mem_cons_of_mem s ht
      obtain ⟨l, more, hmore, hdepth, hl⟩ :=
        (outline next (htail' next List.mem_cons_self)).lines_eq_cons depth
          (forestLines depth forest ++ rest)
      rw [forestLines, List.append_assoc, hmore] at hts
      obtain ⟨ts₁, hts₁, hstep⟩ := hhead _ tail ts hl
        (fun m hm => Nat.le_of_eq (Option.some.inj hm ▸ hdepth)) htail hts
      rw [levelsUp, hdepth, Nat.sub_self] at hstep
      rw [← hmore] at hts₁
      obtain ⟨ts₂, hts₂, hrun⟩ := ih (fun t ht => outline t (htail' t ht))
        (fun t ht => walks t (htail' t ht)) (path.attach s) hts₁
        (walks next (htail' next List.mem_cons_self) groups _ depth)
      exact ⟨ts₂, hts₂, hstep.trans hrun⟩

/-- A forest up to the end of the tokens or of its group, where all that is open
gets closed. -/
theorem walks_whole_forest {jsx : Bool} {forest : List Statement}
    (outline : ∀ t ∈ forest, t.IsOutline) (walks : ∀ t ∈ forest, Walks jsx t)
    (groups : List OpenGroup) (path : Path) {depth : Nat} {tail ts : List Token}
    (htail : Closing tail)
    (hts : Spelled ts (join (forestLines depth forest) ++ tail)) :
    ∃ ts', Spelled ts' tail ∧
      statementsFrom jsx groups path ts =
        statementsFrom jsx groups (forest.foldl Path.attach path) ts' := by
  cases forest with
  | nil => exact ⟨ts, hts, rfl⟩
  | cons s forest =>
      rw [← List.append_nil (forestLines depth (s :: forest))] at hts
      exact walks_forest outline walks groups path
        (by simp [Readable]) (by simp) htail hts

theorem walks_element {jsx : Bool} {e : ElementTokens} (bare : e.IsBare)
    {children : List Statement} (outline : ∀ t ∈ children, t.IsOutline)
    (walks : ∀ t ∈ children, Walks jsx t) :
    Walks jsx (.element e children) := by
  intro groups path depth rest tail ts hread hrest htail hts
  rw [lines, List.cons_append, join, List.append_assoc] at hts
  obtain ⟨head, behind, rfl, hhead, hbehind⟩ := spelled_append hts
  cases children with
  | nil =>
      obtain ⟨hends, sep, ts', rfl, hts', hfollow⟩ :=
        follow_joinBehind path hread htail hbehind (.element e [])
      refine ⟨ts', hts', ?_⟩
      rw [statementsFrom_element bare hhead hends, hfollow, List.drop_left,
        pathBehind_eq_climbs path _ hrest]
  | cons child children =>
      obtain ⟨l, more, hmore, hdepth, hl⟩ :=
        (outline child List.mem_cons_self).lines_eq_cons (depth + 1)
          (forestLines (depth + 1) children ++ rest)
      rw [forestLines, List.append_assoc, hmore] at hbehind
      obtain ⟨hends, sep, ts₁, rfl, hts₁, hfollow⟩ :=
        follow_joinBehind path hl htail hbehind (.element e [])
      have hdown :
          pathBehind path (.element e []) depth (l :: more) =
            path.descend (.element e []) := by
        rw [pathBehind, hdepth, if_pos (Nat.lt_succ_self depth)]
      rw [← hmore, ← List.append_assoc, ← forestLines] at hts₁
      obtain ⟨ts', hts', hrun⟩ := walks_forest outline walks groups
        (path.descend (.element e [])) hread
        (fun m hm => Nat.le_succ_of_le (hrest m hm)) htail hts₁
      refine ⟨ts', hts', ?_⟩
      rw [statementsFrom_element bare hhead hends, hfollow, List.drop_left,
        hdown, hrun, Path.foldl_attach_descend, List.nil_append]
      -- At the end the statement may stay open; before another line it has been
      -- climbed out of.
      cases rest with
      | nil =>
          apply statementsFrom_congr_close (Path.close_descend path _)
          exact htail.of_spelled hts'
      | cons m rest =>
          have hlevels : levelsUp (depth + 1) (m :: rest) =
              levelsUp depth (m :: rest) + 1 := by
            have hm := hrest m rfl
            simp only [levelsUp]
            omega
          rw [hlevels, Path.climbs_descend]

theorem walks_group {jsx : Bool} {children : List Statement}
    {r : Option Repeater} (outline : ∀ t ∈ children, t.IsOutline)
    (walks : ∀ t ∈ children, Walks jsx t) : Walks jsx (.group children r) := by
  intro groups path depth rest tail ts hread hrest htail hts
  simp only [lines, join, groupTokens, List.cons_append, List.append_assoc]
    at hts
  obtain ⟨opener, inner, hopener, hinner, rfl⟩ :=
    List.forall₂_cons_right_iff.1 hts
  have hcloser : Closing (Token.mark (.bracket .group false) ::
      (repeaterTokens r ++ (joinBehind depth rest ++ tail))) := by
    intro t ht
    obtain rfl := Option.some.inj ht
    rfl
  obtain ⟨ts₁, hts₁, hrun⟩ :=
    walks_whole_forest outline walks (⟨opener, path⟩ :: groups)
      {} hcloser hinner
  obtain ⟨closer, more, hclose, hmore, rfl⟩ :=
    List.forall₂_cons_right_iff.1 hts₁
  obtain ⟨count, behind, rfl, hcount, hbehind⟩ := spelled_append hmore
  obtain ⟨hends, sep, ts', rfl, hts', hfollow⟩ :=
    follow_joinBehind path hread htail hbehind (.group children r)
  refine ⟨ts', hts', ?_⟩
  rw [statementsFrom_open hopener.1, hrun,
    statementsFrom_close hclose.1 hcount hends, Path.close_foldl_attach,
    hfollow, List.drop_left, pathBehind_eq_climbs path _ hrest]

theorem walks_of_isOutline (jsx : Bool) {s : Statement}
    (outline : s.IsOutline) : Walks jsx s := by
  induction outline with
  | element bare below ih => exact walks_element bare below ih
  | group below ih => exact walks_group below ih

end Parser

/-- Parsing undoes printing: the tokens of a printed forest are read as exactly
that forest, wherever in a source they stand. -/
theorem parse_print_outline (jsx : Bool) {forest : List Statement}
    (outline : ∀ s ∈ forest, s.IsOutline) :
    parse jsx (print forest) = .ok forest ∧
      ∀ tokens, Spelled tokens (print forest) →
      parse jsx tokens = .ok forest := by
  have hspelled : ∀ tokens, Spelled tokens (print forest) →
      parse jsx tokens = .ok forest := by
    intro tokens htokens
    rw [← List.append_nil (print forest)] at htokens
    obtain ⟨ts, hts, hrun⟩ := Parser.walks_whole_forest outline
      (fun s hs => Parser.walks_of_isOutline jsx (outline s hs)) [] {}
      (by simp [Closing]) htokens
    obtain rfl := List.forall₂_nil_right_iff.1 hts
    rw [parse, hrun, Parser.statementsFrom, Path.close_foldl_attach]
  exact ⟨hspelled _ (spelled_refl _), hspelled⟩

namespace RoundTripWitness

/-- The forest of `ul>li*2^(b>i)*3`. -/
def forest : List Statement :=
  [.element { name := some [⟨.literal "ul", 0, 2⟩] } [.element
    { name := some [⟨.literal "li", 3, 5⟩], repeater := some ⟨2, false⟩ } []],
    .group [.element { name := some [⟨.literal "b", 9, 10⟩] } [.element
        { name := some [⟨.literal "i", 11, 12⟩] } []]] (some ⟨3, false⟩)]

/-- Its tokens, at their places in the source. -/
def tokens : List Token :=
  [⟨.literal "ul", 0, 2⟩, ⟨.operator .child, 2, 3⟩, ⟨.literal "li", 3, 5⟩,
    ⟨.repeater ⟨2, false⟩, 5, 7⟩, ⟨.operator .climb, 7, 8⟩,
    ⟨.bracket .group true, 8, 9⟩, ⟨.literal "b", 9, 10⟩,
    ⟨.operator .child, 10, 11⟩, ⟨.literal "i", 11, 12⟩,
    ⟨.bracket .group false, 12, 13⟩, ⟨.repeater ⟨3, false⟩, 13, 15⟩]

theorem isOutline_forest : ∀ s ∈ forest, s.IsOutline := by
  have bare : ∀ (text : String) (start stop : Nat) (r : Option Repeater),
      ElementTokens.IsBare { name := some [⟨.literal text, start, stop⟩],
                             repeater := r } :=
    fun text _ _ _ => ⟨_, text, rfl, rfl⟩
  intro s hs
  simp only [forest, List.mem_cons, List.not_mem_nil, or_false] at hs
  rcases hs with rfl | rfl
  · refine .element (bare ..) ?_
    rintro _ (_ | ⟨_, ⟨⟩⟩)
    exact .element (bare ..) (by simp)
  · refine .group ?_
    rintro _ (_ | ⟨_, ⟨⟩⟩)
    refine .element (bare ..) ?_
    rintro _ (_ | ⟨_, ⟨⟩⟩)
    exact .element (bare ..) (by simp)

theorem spelled_tokens : Spelled tokens (print forest) := by decide

/-- A forest with a child, a climb and a repeated group is read back, also from
its source. -/
theorem parse_print_outline_climb_into_group :
    (∀ s ∈ forest, s.IsOutline) ∧ parse false (print forest) = .ok forest ∧
      Spelled tokens (print forest) ∧ parse false tokens = .ok forest :=
  ⟨isOutline_forest,
    (parse_print_outline false isOutline_forest).1, spelled_tokens,
    (parse_print_outline false isOutline_forest).2 tokens spelled_tokens⟩

end RoundTripWitness

end Scaffold.Statement

import Scaffold.Proofs.Statement.Printing
/-!
How the parser reads printed lines.  The reader of an element's parts stops at
whatever the printer puts behind an element, so that one line is one step of the
walk over the tokens, and what comes behind the line leads the path on to the
place of the next one.
-/
namespace Scaffold

/-- An operator between statements, or the end of a group: no element reads on
over it. -/
def Token.EndsElement (t : Token) : Prop :=
  t.kind = .operator .child ∨ t.kind = .operator .sibling ∨
    t.kind = .operator .climb ∨ t.kind = .bracket .group false

namespace Statement

/-- Nothing, or what ends an element. -/
def Ending (ts : List Token) : Prop := ∀ t ∈ ts.head?, t.EndsElement

/-- Nothing, or the end of a group. -/
def Closing (ts : List Token) : Prop :=
  ∀ t ∈ ts.head?, t.kind = .bracket .group false

theorem Closing.ending {ts : List Token} (h : Closing ts) : Ending ts :=
  fun t ht => .inr (.inr (.inr (h t ht)))

theorem Closing.of_spelled {ts us : List Token} (hus : Closing us)
    (hts : Spelled ts us) : Closing ts := by
  cases hts with
  | nil => exact hus
  | cons h _ =>
      intro t ht
      obtain rfl := Option.some.inj ht
      rw [h.1]
      exact hus _ rfl

namespace Path

theorem climbs_descend (path : Path) (s : Statement) (n : Nat) :
    (path.descend s).climbs (n + 1) = (path.attach s).climbs n := rfl

theorem close_descend (path : Path) (s : Statement) :
    (path.descend s).close = (path.attach s).close := by
  have hlength : (path.descend s).opened.length =
      (path.attach s).opened.length + 1 := by
    rw [descend, attach]
    split <;> simp_all
  rw [close, close, hlength, climbs_descend]

theorem foldl_attach_descend (path : Path) (e : ElementTokens)
    (below more : List Statement) :
    more.foldl attach (path.descend (.element e below)) =
      path.descend (.element e (below ++ more)) := by
  induction more generalizing below with
  | nil => rw [List.append_nil, List.foldl_nil]
  | cons s more ih =>
      have hone : (path.descend (.element e below)).attach s =
          path.descend (.element e (below ++ [s])) := rfl
      rw [List.foldl_cons, hone, ih, List.append_assoc, List.singleton_append]

theorem foldl_attach_root (finished more : List Statement) :
    more.foldl attach { finished } = { finished := finished ++ more } := by
  induction more generalizing finished with
  | nil => rw [List.append_nil, List.foldl_nil]
  | cons s more ih =>
      have hone : attach { finished } s = { finished := finished ++ [s] } := rfl
      rw [List.foldl_cons, hone, ih, List.append_assoc, List.singleton_append]

theorem close_foldl_attach (forest : List Statement) :
    (forest.foldl attach {}).close = forest := by
  rw [foldl_attach_root]
  rfl

end Path

namespace Parser

theorem elementParts_nil (jsx : Bool) (e : ElementTokens) :
    elementParts jsx e [] = .ok (e, 0) := by
  rw [elementParts]

theorem elementParts_of_endsElement (jsx : Bool) (e : ElementTokens) {t : Token}
    (ht : t.EndsElement) (rest : List Token) :
    elementParts jsx e (t :: rest) = .ok (e, 0) := by
  rw [elementParts]
  rcases ht with h | h | h | h <;>
    simp [Token.repeater?, text?, shorthand?, shorthandName?, closing,
      Token.isBracket, Token.isOperator, h]

theorem elementParts_of_ends (jsx : Bool) (e : ElementTokens) {ts : List Token}
    (hends : Ending ts) : elementParts jsx e ts = .ok (e, 0) := by
  cases ts with
  | nil => exact elementParts_nil jsx e
  | cons t rest => exact elementParts_of_endsElement jsx e (hends t rfl) rest

theorem elementParts_repeater (jsx : Bool) {e : ElementTokens}
    (hnone : e.repeater = none) (hsome : e.isEmpty = false) {t : Token}
    {r : Repeater} (ht : t.kind = .repeater r) {ts : List Token}
    (hends : Ending ts) :
    elementParts jsx e (t :: ts) = .ok ({ e with repeater := some r }, 1) := by
  rw [elementParts]
  simp [Token.repeater?, ht, hnone, hsome, elementParts_of_ends jsx _ hends]

theorem memberLength_eq_zero {ts : List Token}
    (hdot : ∀ t ∈ ts.head?, t.isOperator .className = false) :
    memberLength ts = 0 := by
  match ts with
  | [] | [_] => rfl
  | dot :: part :: rest => simp [memberLength, hdot dot rfl]

/-- A name of one literal ends where neither another part nor a member of it
comes. -/
theorem nameLength_literal (jsx : Bool) {name : Token} {text : String}
    (hname : name.kind = .literal text) {ts : List Token}
    (hpart : ∀ t ∈ ts.head?, t.isNamePart = false)
    (hdot : ∀ t ∈ ts.head?, t.isOperator .className = false) :
    nameLength jsx (name :: ts) = 1 := by
  have hstop : ts.takeWhile Token.isNamePart = [] := by
    cases ts with
    | nil => rfl
    | cons t rest => simp [hpart t rfl]
  have hliteral : name.isNamePart = true := by simp [Token.isNamePart, hname]
  simp only [nameLength, memberLength_eq_zero hdot]
  split <;> simp [hstop, hliteral]

/-- The printed head of an element is read as that element, whatever ends it. -/
theorem element?_headTokens (jsx : Bool) {e : ElementTokens} (bare : e.IsBare)
    {ts : List Token} (hts : Spelled ts (headTokens e)) {behind : List Token}
    (hends : Ending behind) :
    element? jsx (ts ++ behind) = .ok (some (e, ts.length)) := by
  obtain ⟨name, text, hname, he⟩ := bare
  rw [he] at hts ⊢
  simp only [headTokens, Option.getD_some, List.singleton_append,
    List.forall₂_cons_right_iff] at hts
  obtain ⟨t, us, ht, hus, rfl⟩ := hts
  obtain rfl := ht.eq hname
  cases hr : e.repeater with
  | none =>
      simp only [hr, repeaterTokens, Option.map_none, Option.toList_none,
        List.forall₂_nil_right_iff] at hus
      subst hus
      have hlength : nameLength jsx (t :: behind) = 1 := by
        apply nameLength_literal jsx hname <;> intro u hu <;>
          rcases hends u hu with h | h | h | h <;>
            simp [Token.isNamePart, Token.isOperator, h]
      simp [element?, hlength, elementParts_of_ends jsx _ hends,
        ElementTokens.isEmpty]
  | some r =>
      simp only [hr, repeaterTokens, Option.map_some, Option.toList_some,
        List.forall₂_cons_right_iff, List.forall₂_nil_right_iff] at hus
      obtain ⟨u, vs, hu, rfl, rfl⟩ := hus
      have hkind : u.kind = .repeater r := hu.1
      have hlength : nameLength jsx (t :: u :: behind) = 1 := by
        apply nameLength_literal jsx hname <;> intro v hv <;>
          obtain rfl := Option.some.inj hv <;>
            simp [Token.isNamePart, Token.isOperator, hkind]
      simp [element?, hlength, ElementTokens.isEmpty, elementParts_repeater jsx
        rfl (e := { name := some [t] }) rfl hkind hends]

/-- No element begins with a bracket of a group. -/
theorem element?_group (jsx : Bool) {t : Token} {opens : Bool}
    (ht : t.kind = .bracket .group opens) (rest : List Token) :
    element? jsx (t :: rest) = .ok none := by
  have hlength : nameLength jsx (t :: rest) = 0 := by
    simp [nameLength, Token.isCapitalized, Token.isNamePart, ht]
  have hparts : elementParts jsx {} (t :: rest) = .ok ({}, 0) := by
    rw [elementParts]
    simp [Token.repeater?, text?, shorthand?, closing, Token.isBracket,
      ElementTokens.isEmpty, ht]
  simp [element?, hlength, hparts, ElementTokens.isEmpty]

variable {jsx : Bool} {groups : List OpenGroup} {path : Path}

theorem statementsFrom_element {e : ElementTokens} (bare : e.IsBare)
    {ts : List Token} (hts : Spelled ts (headTokens e)) {behind : List Token}
    (hends : Ending behind) :
    statementsFrom jsx groups path (ts ++ behind) =
      statementsFrom jsx groups (follow path (.element e []) behind).1
        (behind.drop (follow path (.element e []) behind).2) := by
  have hread := element?_headTokens jsx bare hts hends
  cases ts with
  | nil =>
      obtain ⟨name, text, _, he⟩ := bare
      rw [he] at hts
      simp [headTokens] at hts
  | cons t rest =>
      rw [List.cons_append] at hread ⊢
      rw [statementsFrom.eq_def]
      simp [hread]

theorem statementsFrom_open {t : Token} (ht : t.kind = .bracket .group true)
    (rest : List Token) :
    statementsFrom jsx groups path (t :: rest) =
      statementsFrom jsx (⟨t, path⟩ :: groups) {} rest := by
  rw [statementsFrom.eq_def]
  simp [element?_group jsx ht, Token.isBracket, ht]

theorem repeater?_append {ts behind : List Token} {r : Option Repeater}
    (hts : Spelled ts (repeaterTokens r)) (hends : Ending behind) :
    repeater? (ts ++ behind) = r ∧ ts.length = if r.isSome then 1 else 0 := by
  cases r with
  | none =>
      obtain rfl := List.forall₂_nil_right_iff.1 hts
      cases behind with
      | nil => exact ⟨rfl, rfl⟩
      | cons t rest =>
          rcases hends t rfl with h | h | h | h <;>
            simp [repeater?, Token.repeater?, h]
  | some r =>
      simp only [repeaterTokens, Option.map_some, Option.toList_some,
        List.forall₂_cons_right_iff, List.forall₂_nil_right_iff] at hts
      obtain ⟨t, _, ht, rfl, rfl⟩ := hts
      have hkind : t.kind = .repeater r := ht.1
      simp [repeater?, Token.repeater?, hkind]

theorem statementsFrom_close {g : OpenGroup} {t : Token}
    (ht : t.kind = .bracket .group false) {r : Option Repeater}
    {ts : List Token} (hts : Spelled ts (repeaterTokens r))
    {behind : List Token} (hends : Ending behind) :
    statementsFrom jsx (g :: groups) path (t :: (ts ++ behind)) =
      statementsFrom jsx groups (follow g.path (.group path.close r) behind).1
        (behind.drop (follow g.path (.group path.close r) behind).2) := by
  obtain ⟨hr, hlength⟩ := repeater?_append hts hends
  rw [statementsFrom.eq_def]
  simp [element?_group jsx ht, Token.isBracket, ht, hr, ← hlength]

/-- At the end of a forest only the closed path matters, not how deep it still
is. -/
theorem statementsFrom_congr_close {path' : Path}
    (hclose : path.close = path'.close) {ts : List Token} (hts : Closing ts) :
    statementsFrom jsx groups path ts = statementsFrom jsx groups path' ts := by
  rw [statementsFrom.eq_def, statementsFrom.eq_def jsx groups path']
  cases ts with
  | nil => simp only [hclose]
  | cons t rest =>
      have ht : t.kind = .bracket .group false := hts t rfl
      simp only [element?_group jsx ht, hclose]
      simp [Token.isBracket, ht]

theorem follow_child {t : Token} (ht : t.kind = .operator .child)
    (s : Statement) (rest : List Token) :
    follow path s (t :: rest) = (path.descend s, 1) := by
  simp [follow, Token.isOperator, ht]

theorem follow_sibling {t : Token} (ht : t.kind = .operator .sibling)
    (s : Statement) (rest : List Token) :
    follow path s (t :: rest) = (path.attach s, 1) := by
  simp [follow, Token.isOperator, ht]

/-- Where neither `>` nor `+` is ahead, the path climbs one level for each
`^`. -/
theorem follow_climbs {ts rest : List Token}
    (hts : ∀ t ∈ ts, t.kind = .operator .climb)
    (hrest : ∀ t ∈ rest.head?, ∀ op, t.isOperator op = false) (s : Statement) :
    follow path s (ts ++ rest) =
      ((path.attach s).climbs ts.length, ts.length) := by
  have hstop : rest.takeWhile (·.isOperator .climb) = [] := by
    cases rest with
    | nil => rfl
    | cons t rest => simp [hrest t rfl .climb]
  have htake : (ts ++ rest).takeWhile (·.isOperator .climb) = ts := by
    rw [List.takeWhile_append_of_pos, hstop, List.append_nil]
    intro t ht
    simp [Token.isOperator, hts t ht]
  cases hall : ts ++ rest with
  | nil =>
      obtain ⟨rfl, rfl⟩ := List.append_eq_nil_iff.1 hall
      rfl
  | cons t more =>
      have hplain : t.isOperator .child = false ∧
          t.isOperator .sibling = false := by
        cases ts with
        | nil =>
            rw [List.nil_append] at hall
            subst hall
            exact ⟨hrest t rfl .child, hrest t rfl .sibling⟩
        | cons u us =>
            obtain ⟨rfl, -⟩ := List.cons.inj hall
            simp [Token.isOperator, hts u List.mem_cons_self]
      rw [follow, ← hall]
      simp [hplain, htake]

/-- Where the path leads behind a statement when the given lines come next. -/
def pathBehind (path : Path) (s : Statement) (depth : Nat) : List Line → Path
  | [] => path.attach s
  | l :: _ =>
      if depth < l.depth then path.descend s
      else (path.attach s).climbs (depth - l.depth)

/-- Tokens that spell readable lines begin like a statement. -/
theorem isOperator_head?_join {l : Line} {rest : List Line}
    (hrest : Readable (l :: rest)) {tail ts : List Token}
    (hts : Spelled ts (join (l :: rest) ++ tail)) :
    ∀ t ∈ ts.head?, ∀ op, t.isOperator op = false := by
  obtain ⟨u, more, hl, hu⟩ := hrest l rfl
  rw [join, hl, List.cons_append, List.cons_append] at hts
  obtain ⟨t, us, ht, -, rfl⟩ := List.forall₂_cons_right_iff.1 hts
  intro v hv op
  obtain rfl := Option.some.inj hv
  have hbegins : t.BeginsStatement := by
    rw [Token.BeginsStatement, ht.1]
    exact hu
  exact hbegins.isOperator op

theorem follow_closing {tail : List Token} (htail : Closing tail)
    (s : Statement) : follow path s tail = (path.attach s, 0) := by
  have hnone : ∀ t ∈ ([] : List Token), t.kind = .operator .climb := by simp
  apply follow_climbs hnone
  intro t ht op
  simp [Token.isOperator, htail t ht]

/-- A separator ends the statement in front of it, and leads the path as far as
it says. -/
theorem follow_separator (path : Path) {depth below : Nat} {sep : List Token}
    (hsep : Spelled sep (separator depth below)) {rest : List Token}
    (hrest : ∀ t ∈ rest.head?, ∀ op, t.isOperator op = false) (s : Statement) :
    Ending (sep ++ rest) ∧
      follow path s (sep ++ rest) =
        (if depth < below then path.descend s
          else (path.attach s).climbs (depth - below),
          sep.length) := by
  rw [separator] at hsep
  by_cases hdown : depth < below
  · rw [if_pos hdown] at hsep ⊢
    obtain ⟨t, rfl, ht⟩ := spelled_mark hsep
    exact ⟨fun u hu => .inl (Option.some.inj hu ▸ ht), follow_child ht s rest⟩
  · rw [if_neg hdown] at hsep ⊢
    by_cases hsame : depth = below
    · rw [if_pos hsame] at hsep
      obtain ⟨t, rfl, ht⟩ := spelled_mark hsep
      rw [hsame, Nat.sub_self]
      exact ⟨fun u hu => .inr (.inl (Option.some.inj hu ▸ ht)),
        follow_sibling ht s rest⟩
    · rw [if_neg hsame] at hsep
      obtain ⟨hlength, hclimb⟩ := spelled_replicate hsep
      refine ⟨?_, hlength ▸ follow_climbs hclimb hrest s⟩
      intro t ht
      cases sep with
      | nil =>
          rw [List.length_nil] at hlength
          omega
      | cons u us =>
          obtain rfl := Option.some.inj ht
          exact .inr (.inr (.inl (hclimb _ List.mem_cons_self)))

/-- Behind a line the tokens end its statement, and lead the path on to the next
line. -/
theorem follow_joinBehind (path : Path) {depth : Nat} {rest : List Line}
    (hrest : Readable rest) {tail : List Token} (htail : Closing tail)
    {ts : List Token} (hts : Spelled ts (joinBehind depth rest ++ tail))
    (s : Statement) :
    Ending ts ∧
      ∃ sep ts', ts = sep ++ ts' ∧ Spelled ts' (join rest ++ tail) ∧
        follow path s ts = (pathBehind path s depth rest, sep.length) := by
  cases rest with
  | nil =>
      rw [joinBehind, List.nil_append] at hts
      have hclosing : Closing ts := htail.of_spelled hts
      exact ⟨hclosing.ending, [], ts, rfl, hts, follow_closing hclosing s⟩
  | cons l rest =>
      rw [joinBehind, List.append_assoc] at hts
      obtain ⟨sep, ts', rfl, hsep, hts'⟩ := spelled_append hts
      have hread :=
        follow_separator path hsep (isOperator_head?_join hrest hts') s
      exact ⟨hread.1, sep, ts', rfl, hts', hread.2⟩

/-- The number of levels from a depth up to the next line. -/
def levelsUp (depth : Nat) : List Line → Nat
  | [] => 0
  | l :: _ => depth - l.depth

theorem pathBehind_eq_climbs (path : Path) (s : Statement) {depth : Nat}
    {rest : List Line} (hrest : ∀ l ∈ rest.head?, l.depth ≤ depth) :
    pathBehind path s depth rest =
      (path.attach s).climbs (levelsUp depth rest) := by
  cases rest with
  | nil => rfl
  | cons l rest =>
      rw [pathBehind, if_neg (Nat.not_lt.2 (hrest l rfl))]
      rfl

end Parser

end Statement

end Scaffold

import Scaffold.Proofs.Statement.Parts
/-!
Brackets and quotes of what the parser accepts.  A part that leaves a bracket
open leaves it so to the end, since what comes behind closes its own brackets
and those of the groups around it.  So all that can be amiss with the brackets
of an accepted abbreviation is within a literal of an attribute. Main statement:
`nested_iff_of_parse`.
-/
namespace Scaffold

/-- The brackets of all attributes of an element are nested and closed. -/
def ElementTokens.IsNested (e : ElementTokens) : Prop :=
  ∀ a ∈ e.attributes.getD [], a.IsNested

theorem ElementTokens.isNested_addAttributes (e : ElementTokens)
    (more : List AttributeTokens) :
    (e.addAttributes more).IsNested ↔ e.IsNested ∧ ∀ a ∈ more, a.IsNested := by
  simp only [IsNested, addAttributes, Option.getD_some, List.forall_mem_append]

namespace Statement.Parser

open Token Lexer

/-! ### Elements -/

theorem isPlain_of_isCapitalized {t : Token} (h : t.isCapitalized = true) :
    t.kind.isPlain = true := by
  rw [isCapitalized] at h
  cases hkind : t.kind <;> simp_all [TokenKind.isPlain]

theorem isPlain_of_isNamePart {t : Token} (h : t.isNamePart = true) :
    t.kind.isPlain = true := by
  rw [isNamePart] at h
  cases hkind : t.kind <;> simp_all [TokenKind.isPlain]

theorem takes_memberLength {ts : List Token} (hts : Unquoted ts) :
    Takes ts (memberLength ts) True := by
  refine takes_of_isPlain hts ?_
  clear hts
  fun_induction memberLength ts with
  | case1 dot part ts hmember ih =>
      obtain ⟨hdot, hpart⟩ := Bool.and_eq_true_iff.1 hmember
      rw [List.take_succ_cons, List.take_succ_cons, List.forall_mem_cons,
        List.forall_mem_cons]
      exact ⟨isPlain_of_isOperator hdot, isPlain_of_isCapitalized hpart, ih⟩
  | case2 => simp
  | case3 => simp

theorem takes_nameLength {jsx : Bool} {ts : List Token} (hts : Unquoted ts) :
    Takes ts (nameLength jsx ts) True := by
  have hparts : ∀ {n : Nat}, Takes ts n True →
      Takes ts (n + ((ts.drop n).takeWhile isNamePart).length)
        True := fun htakes =>
    (htakes.trans (takes_takeWhile htakes.unquoted fun _ =>
      isPlain_of_isNamePart)).congr (and_self_iff)
  rw [nameLength.eq_def]
  refine hparts ?_
  cases ts with
  | nil => exact .zero hts
  | cons t rest =>
      dsimp only
      split
      · next hcomponent =>
          have ht :=
            isPlain_of_isCapitalized (Bool.and_eq_true_iff.1 hcomponent).2
          have hone := takes_one hts ht
          rw [Nat.add_comm]
          exact (hone.trans (takes_memberLength hone.unquoted)).congr
            and_self_iff
      · exact .zero hts

theorem takes_closing {e : ElementTokens} {t : Token} {ts : List Token}
    (hts : Unquoted (t :: ts)) :
    Takes (t :: ts) (closing e t ts).2 True ∧
      ((closing e t ts).1.IsNested ↔ e.IsNested) ∧
      ((closing e t ts).2 = 0 → (closing e t ts).1 = e) := by
  rw [closing]
  split
  · next hclose =>
      have hone :=
        takes_one hts (isPlain_of_isOperator (Bool.and_eq_true_iff.1 hclose).2)
      split
      · next r hr =>
          split at hr
          · cases ts with
            | nil => cases hr
            | cons u us =>
                have htwo :=
                  hone.trans (takes_one hone.unquoted (isPlain_of_repeater? hr))
                exact ⟨htwo.congr and_self_iff, Iff.rfl, fun h => by cases h⟩
          · cases hr
      · exact ⟨hone, Iff.rfl, fun h => by cases h⟩
  · exact ⟨.zero hts, Iff.rfl, fun _ => rfl⟩

/-- What a reader of an element's parts takes decides whether the element is
nested, as far as it was so before; a reader that takes nothing leaves the
element as it is. -/
structure Extends (e : ElementTokens) (ts : List Token) (e' : ElementTokens)
    (n : Nat) : Prop where
  takes : Takes ts n (Nested (ts.take n))
  nested : e'.IsNested ↔ e.IsNested ∧ Nested (ts.take n)
  same : n = 0 → e' = e

theorem Extends.of_takes {e e' : ElementTokens} {ts : List Token} {n : Nat}
    {P : Prop} (h : Takes ts n P) (hnested : e'.IsNested ↔ e.IsNested ∧ P)
    (hsame : n = 0 → e' = e) : Extends e ts e' n :=
  ⟨⟨h.closed, Iff.rfl, h.unquoted⟩, by rw [hnested, h.nested], hsame⟩

theorem Extends.trans {e e' e'' : ElementTokens} {ts : List Token} {n m : Nat}
    (h : Extends e ts e' n) (h' : Extends e' (ts.drop n) e'' m) :
    Extends e ts e'' (n + m) := by
  refine .of_takes (h.takes.trans h'.takes) ?_ fun hzero => ?_
  · rw [h'.nested, h.nested, and_assoc]
  · rw [h'.same (by omega), h.same (by omega)]

/-- An element closes, or has one more part in front of the others. -/
theorem closing_or_extends_of_elementParts {jsx : Bool} {e e' : ElementTokens}
    {t : Token} {rest : List Token} {n : Nat} (hts : Unquoted (t :: rest))
    (h : elementParts jsx e (t :: rest) = .ok (e', n)) :
    closing e t rest = (e', n) ∨
      ∃ (e₁ : ElementTokens) (k m : Nat), 0 < k ∧ n = k + m ∧
      Extends e (t :: rest) e₁ k ∧
        elementParts jsx e₁ (rest.drop (k - 1)) = .ok (e', m) := by
  rw [elementParts.eq_def] at h
  dsimp only at h
  split at h
  · next r hr hnone =>
      split at h
      · cases h
      · next parts hparts =>
          cases h
          have htakes := takes_one hts (isPlain_of_repeater? hr)
          exact .inr ⟨_, 1, _, Nat.one_pos, rfl,
            .of_takes htakes (by simp; rfl) (by simp), hparts⟩
  · split at h
    · cases h
    · next k htext =>
        split at h
        · cases h
        · next parts hparts =>
            cases h
            split at htext
            · obtain ⟨htakes, -⟩ := takes_text? hts htext
              exact .inr ⟨_, k + 2, _, Nat.succ_pos _, rfl,
                .of_takes htakes (by simp; rfl) (by simp), hparts⟩
            · cases htext
    · split at h
      · cases h
      · next a k hshorthand =>
          split at h
          · cases h
          · next parts hparts =>
              cases h
              obtain ⟨hpos, htakes⟩ := takes_shorthand? hts hshorthand
              refine .inr ⟨_, k, _, hpos, rfl,
                .of_takes htakes ?_ (by omega), hparts⟩
              simp [ElementTokens.isNested_addAttributes]
      · split at h
        · next hopen =>
            split at h
            · cases h
            · next attributes k hset =>
                split at h
                · cases h
                · next parts hparts =>
                    cases h
                    have htakes :=
                      takes_attributeSet hts (kind_of_isBracket hopen) hset
                    exact .inr ⟨_, k + 1, _, Nat.succ_pos k, rfl,
                      .of_takes htakes (ElementTokens.isNested_addAttributes e
                        attributes) (by simp), hparts⟩
        · exact .inl (Except.ok.inj h)

/-- All parts of an element together do what each of them does. -/
theorem extends_elementParts {jsx : Bool} {e e' : ElementTokens}
    {ts : List Token} {n : Nat} (hts : Unquoted ts)
    (h : elementParts jsx e ts = .ok (e', n)) : Extends e ts e' n := by
  induction hlength : ts.length using Nat.strongRecOn generalizing e ts n with
  | ind length ih =>
    subst hlength
    cases ts with
    | nil =>
        rw [elementParts] at h
        cases h
        exact .of_takes (.zero hts) (by simp) fun _ => rfl
    | cons t rest =>
        rcases closing_or_extends_of_elementParts hts h with
          hclosing | ⟨e₁, k, m, hk, rfl, hfront, hparts⟩
        · obtain ⟨htakes, hnested, hsame⟩ := takes_closing (e := e) hts
          rw [hclosing] at htakes hnested hsame
          exact .of_takes htakes (by rw [hnested, and_true]) hsame
        · have hshorter : (rest.drop (k - 1)).length < (t :: rest).length := by
            simp only [List.length_drop, List.length_cons]
            omega
          rw [drop_pred_eq (t := t) hk] at hparts hshorter
          exact hfront.trans (ih _ hshorter hfront.takes.unquoted hparts rfl)

/-- An element takes some tokens, which are nested if its attributes are. -/
theorem takes_element? {jsx : Bool} {ts : List Token} {e : ElementTokens}
    {n : Nat} (hts : Unquoted ts) (h : element? jsx ts = .ok (some (e, n))) :
    0 < n ∧ Takes ts n e.IsNested := by
  have hwritten := isEmpty_of_element? h
  have hname : Takes ts (nameLength jsx ts) True := takes_nameLength hts
  rw [element?] at h
  split at h
  · cases h
  · next e' m hparts =>
      split at h
      · cases h
      · cases h
        have hextends := extends_elementParts hname.unquoted hparts
        refine ⟨Nat.pos_of_ne_zero fun hzero => ?_, ?_⟩
        · rw [hextends.same (by omega), if_pos (by omega)] at hwritten
          cases hwritten
        · refine (hname.trans hextends.takes).congr ?_
          rw [hextends.nested]
          split <;> simp [ElementTokens.IsNested]

/-! ### Statements -/

/-- Where more brackets are open than those of the groups around, some stay
open. -/
def LeavesOpen (depth : Nat) (ts : List Token) : Prop :=
  ∀ opened : List BracketKind, depth < opened.length → nest opened ts ≠ some []

/-- What the walk over tokens reads is nested in the groups around it if the
attributes of all its elements are; its quotes come in pairs, and it closes no
more than those groups. -/
structure Finishes (groups : List OpenGroup) (path : Path) (ts : List Token)
    (statements : List Statement) : Prop where
  quoted : Quoted ts
  nested : AllHold ElementTokens.IsNested statements ↔
    path.Holds ElementTokens.IsNested ∧
      (∀ g ∈ groups, g.path.Holds ElementTokens.IsNested) ∧
      nest (List.replicate groups.length .group) ts = some []
  leavesOpen : LeavesOpen groups.length ts

section Finishes

variable {groups : List OpenGroup} {path : Path} {statements : List Statement}
    {t : Token} {ts : List Token}

theorem finishes_nil : Finishes [] path [] path.close := by
  refine ⟨trivial, by simp [Path.allHold_close], fun opened hopened hnest => ?_⟩
  rw [nest_nil, Option.some.injEq] at hnest
  simp [hnest] at hopened

theorem takes_follow (path : Path) (s : Statement) (hts : Unquoted ts) :
    Takes ts (follow path s ts).2 True := by
  cases ts with
  | nil => exact .zero hts
  | cons t ts =>
      rw [follow]
      split
      · next hchild => exact takes_one hts (isPlain_of_isOperator hchild)
      split
      · next hsibling => exact takes_one hts (isPlain_of_isOperator hsibling)
      · exact takes_takeWhile hts fun _ => isPlain_of_isOperator

/-- A part in front, whose elements are added to the path. -/
theorem Finishes.of_takes (path' : Path) {n : Nat} {P : Prop} (h : Takes ts n P)
    (hpath : path'.Holds ElementTokens.IsNested ↔
      path.Holds ElementTokens.IsNested ∧ P)
    (hrest : Finishes groups path' (ts.drop n) statements) :
    Finishes groups path ts statements := by
  have hdeeper : LeavesOpen groups.length (ts.drop n) := hrest.leavesOpen
  have hiff :=
    h.nest_eq_nil_iff (List.replicate groups.length .group) fun inner hinner =>
    hdeeper inner (by rwa [List.length_replicate] at hinner)
  refine ⟨h.quoted hrest.quoted, ?_, fun opened => h.nest_ne_nil hdeeper⟩
  rw [hrest.nested, hpath, hiff]
  simp only [and_assoc, and_left_comm]

theorem quoted_cons {kind : BracketKind} {opens : Bool}
    (ht : t.kind = .bracket kind opens) (hts : Quoted ts) :
    Quoted (t :: ts) := by
  rwa [Quoted, List.filterMap_cons_none (quote?_of_bracket ht)]

/-- An opening bracket in front, and the path that was left at it. -/
theorem Finishes.of_open (ht : t.kind = .bracket .group true)
    (h : Finishes (⟨t, path⟩ :: groups) {} ts statements) :
    Finishes groups path (t :: ts) statements := by
  refine ⟨quoted_cons ht h.quoted, ?_, fun opened hopened => ?_⟩
  · rw [h.nested, List.forall_mem_cons, nest_open ht, List.length_cons,
      List.replicate_succ]
    simp [Path.Holds.empty, and_assoc]
  · rw [nest_open ht]
    exact h.leavesOpen _ (Nat.succ_lt_succ hopened)

/-- A closing bracket in front, which leads back to the path of its group. -/
theorem Finishes.of_close {g : OpenGroup} {path' : Path}
    (ht : t.kind = .bracket .group false)
    (hpath : path'.Holds ElementTokens.IsNested ↔
      g.path.Holds ElementTokens.IsNested ∧ path.Holds ElementTokens.IsNested)
    (h : Finishes groups path' ts statements) :
    Finishes (g :: groups) path (t :: ts) statements := by
  refine ⟨quoted_cons ht h.quoted, ?_, fun opened hopened => ?_⟩
  · rw [h.nested, hpath, List.forall_mem_cons, List.length_cons,
      List.replicate_succ, nest_close ht, if_pos rfl]
    simp only [and_assoc, and_left_comm]
  · cases opened with
    | nil => exact absurd hopened (Nat.not_lt_zero _)
    | cons innermost outer =>
        rw [nest_close ht]
        split
        · exact h.leavesOpen outer (Nat.lt_of_succ_lt_succ hopened)
        · simp

theorem takes_repeater? (hts : Unquoted ts) :
    Takes ts (if (Parser.repeater? ts).isSome then 1 else 0) True := by
  cases ts with
  | nil => exact .zero hts
  | cons t ts =>
      split
      · next hsome =>
          obtain ⟨r, hr⟩ := Option.isSome_iff_exists.1 hsome
          exact takes_one hts (isPlain_of_repeater? hr)
      · exact .zero hts

end Finishes

/-- Every statement that is read finishes what was open. -/
theorem finishes_statementsFrom {jsx : Bool} {groups : List OpenGroup}
    {path : Path} {ts : List Token} {statements : List Statement}
    (hts : Unquoted ts)
    (h : statementsFrom jsx groups path ts = .ok statements) :
    Finishes groups path ts statements := by
  fun_induction statementsFrom jsx groups path ts with
  | case1 path =>
      cases h
      exact finishes_nil
  | case2 => cases h
  | case3 => cases h
  | case4 groups path t rest e n helement behind path' m hfollow ih =>
      obtain ⟨hpos, htakes⟩ := takes_element? hts helement
      have hbehind : behind = (t :: rest).drop n := drop_pred_eq hpos
      have hfollowed :=
        takes_follow path (.element e []) (hbehind ▸ htakes.unquoted)
      have hpath := Path.holds_follow (P := ElementTokens.IsNested) path
        (.element e []) behind
      rw [hfollow] at hfollowed hpath
      have hrest := ih hfollowed.unquoted h
      refine .of_takes path' (htakes.trans (hbehind ▸ hfollowed)) ?_ ?_
      · rw [hpath]
        simp [Holds, AllHold]
      · rwa [← List.drop_drop, ← hbehind]
  | case5 groups path t rest helement hopen ih =>
      have ht := kind_of_isBracket hopen
      exact .of_open ht (ih (hts.of_bracket ht (by decide)) h)
  | case6 path t rest helement hopen g groups hclose r behind path' m
    hfollow ih =>
      have ht := kind_of_isBracket hclose
      have hrest := hts.of_bracket ht (by decide)
      have hrepeated := takes_repeater? hrest
      have hfollowed :
          Takes behind (follow g.path (.group path.close r) behind).2 True :=
        takes_follow g.path (.group path.close r) hrepeated.unquoted
      have hpath := Path.holds_follow (P := ElementTokens.IsNested) g.path
        (.group path.close r) behind
      rw [hfollow] at hfollowed hpath
      rw [Holds, Path.allHold_close] at hpath
      refine .of_close ht hpath ?_
      have hnext := ih hfollowed.unquoted h
      refine .of_takes path' (hrepeated.trans hfollowed) (by simp) ?_
      rwa [← List.drop_drop]
  | case7 => cases h

end Statement.Parser

namespace Statement

/-- The quotes of an accepted abbreviation come in pairs.  Its brackets are
nested and closed exactly if those of each name and of each value in its
attributes are. -/
theorem nested_iff_of_parse {source : String} {jsx : Bool} {tokens : List Token}
    {statements : List Statement} (htokens : tokenize source = .ok tokens)
    (hstatements : parse jsx tokens = .ok statements) :
    Token.Quoted tokens ∧
      (Token.Nested tokens ↔ AllHold ElementTokens.IsNested statements) := by
  have hfinishes := Parser.finishes_statementsFrom
    (.inl (orderly_of_tokenize htokens)) hstatements
  refine ⟨hfinishes.quoted, ?_⟩
  rw [hfinishes.nested]
  simp [Path.Holds.empty, Token.Nested]

namespace BracketsWitness

/-- A group with an element, whose attribute has brackets in its value, and a
text. -/
def tokens : List Token :=
  [⟨.bracket .group true, 0, 1⟩, ⟨.literal "p", 1, 2⟩, ⟨.bracket .attributes
    true, 2, 3⟩, ⟨.quote true, 3, 4⟩, ⟨.literal "x", 4, 5⟩, ⟨.quote true, 5, 6⟩,
    ⟨.blank " ", 6, 7⟩, ⟨.literal "b", 7, 8⟩, ⟨.operator .equal, 8, 9⟩,
    ⟨.bracket .attributes true, 9, 10⟩, ⟨.literal "y", 10, 11⟩,
    ⟨.bracket .attributes false, 11, 12⟩, ⟨.bracket .attributes false, 12, 13⟩,
    ⟨.bracket .expression true, 13, 14⟩, ⟨.literal "z", 14, 15⟩,
    ⟨.bracket .expression false, 15, 16⟩, ⟨.bracket .group false, 16, 17⟩]

/-- A quoted value without a name, and a value with brackets. -/
def attributes : List AttributeTokens :=
  [{ value := some [⟨.quote true, 3, 4⟩, ⟨.literal "x", 4, 5⟩,
    ⟨.quote true, 5, 6⟩] },
    { name := some [⟨.literal "b", 7, 8⟩]
      value := some [⟨.bracket .attributes true, 9, 10⟩, ⟨.literal "y", 10, 11⟩,
        ⟨.bracket .attributes false, 11, 12⟩] }]

def statements : List Statement :=
  [.group
    [.element
      { name := some [⟨.literal "p", 1, 2⟩], attributes := some attributes
        value := some [⟨.literal "z", 14, 15⟩] } []]
    none]

/-- The brackets of the group, of the set, of the value and of the text are
nested, since those of the value are. -/
theorem nested_iff_of_parse_group :
    (tokenize "(p['x' b=[y]]\x7bz\x7d)" = .ok tokens ∧
      parse false tokens = .ok statements) ∧
      AllHold ElementTokens.IsNested statements ∧ Token.Nested tokens ∧
      Token.Quoted tokens := by
  have htokens : tokenize "(p['x' b=[y]]\x7bz\x7d)" = .ok tokens := by
    rw [tokens]
    cbv
  have hstatements : parse false tokens = .ok statements := by
    rw [tokens, statements, attributes]
    cbv
  have hattributes : AllHold ElementTokens.IsNested statements := by
    simp only [statements, AllHold, Holds, ElementTokens.IsNested,
      AttributeTokens.IsNested]
    decide
  obtain ⟨hquoted, hiff⟩ := nested_iff_of_parse htokens hstatements
  exact ⟨⟨htokens, hstatements⟩, hattributes, hiff.2 hattributes, hquoted⟩

/-- A value that opens a bracket, in a set of attributes. -/
def unclosed : List Token :=
  [⟨.literal "p", 0, 1⟩, ⟨.bracket .attributes true, 1, 2⟩,
    ⟨.literal "a", 2, 3⟩, ⟨.operator .equal, 3, 4⟩,
    ⟨.bracket .group true, 4, 5⟩, ⟨.literal "b", 5, 6⟩,
    ⟨.bracket .attributes false, 6, 7⟩]

/-- The bracket in the value is not closed, and yet the abbreviation is
accepted. -/
theorem parse_unclosed :
    tokenize "p[a=(b]" = .ok unclosed ∧
      parse false unclosed = .ok
        [.element { name := some [⟨.literal "p", 0, 1⟩]
                    attributes := some
                      [{ name := some [⟨.literal "a", 2, 3⟩]
                         value := some [⟨.bracket .group true, 4, 5⟩,
                           ⟨.literal "b", 5, 6⟩] }] }
          []] ∧
      ¬ Token.Nested unclosed := by
  refine ⟨?_, ?_, by decide⟩ <;> rw [unclosed] <;> cbv

end BracketsWitness

end Statement

end Scaffold

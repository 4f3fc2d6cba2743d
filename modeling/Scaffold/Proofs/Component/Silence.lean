import Scaffold.Component.Body
import Scaffold.Component.Source
import Scaffold.Proofs.Expansion.Shown
import Scaffold.Proofs.Markup.Opening
import Scaffold.Proofs.Token.TextBody
/-!
Markup of which nothing is left.  Comments are cut out of an expansion, each up
to the first mark that closes it, and the blanks around what is left are trimmed
away; so an expansion is lost altogether exactly if it is a sequence of blanks
and comments.  A component returns all the ink of its markup.  Main statements:
`withoutComments_blank_iff`, `returned_ofAbbreviation`.
-/
namespace Scaffold.Component

open Markup (ink)

namespace Body

/-- What begins a comment. -/
def opening : List Char := "<!--".toList

/-- What ends it. -/
def closing : List Char := "-->".toList

/-- The first end of a comment behind a text is the one that follows it. -/
def IsClosedBy (inner : List Char) : Prop :=
  ¬ closing <:+: inner ++ closing.dropLast

/-- A text of blanks and comments only. -/
inductive IsSilent : List Char → Prop
  | nil : IsSilent []
  | blank {c : Char} {cs : List Char} : Text.isBlank c = true → IsSilent cs →
    IsSilent (c :: cs)
  | comment {inner rest : List Char} :
      IsClosedBy inner → IsSilent rest →
        IsSilent (opening ++ inner ++ closing ++ rest)

/-! ### Comments -/

theorem isClosedBy_nil : IsClosedBy [] := by
  rw [IsClosedBy]
  decide

theorem append_dropLast_closing_begins (inner rest : List Char) :
    inner ++ closing.dropLast <+: inner ++ closing ++ rest := by
  rw [List.append_assoc, List.prefix_append_right_inj]
  exact (List.dropLast_prefix closing).trans (List.prefix_append closing rest)

/-- The text of a comment does not begin with an end of one, unless it is
empty. -/
theorem IsClosedBy.not_begins {c : Char} {inner : List Char}
    (h : IsClosedBy (c :: inner)) (rest : List Char) :
    ¬ closing <+: c :: inner ++ closing ++ rest := by
  intro hbegins
  have hshort := append_dropLast_closing_begins (c :: inner) rest
  exact h
    (List.prefix_of_prefix_length_le hbegins hshort (by simp [closing])).isInfix

theorem isClosedBy_cons_iff {c : Char} {inner rest : List Char}
    (h : ¬ closing <+: c :: inner ++ closing ++ rest) :
    IsClosedBy (c :: inner) ↔ IsClosedBy inner := by
  have hfirst : ¬ closing <+: c :: (inner ++ closing.dropLast) := fun hbegins =>
    h (hbegins.trans (append_dropLast_closing_begins (c :: inner) rest))
  rw [IsClosedBy, IsClosedBy, List.cons_append, List.infix_cons_iff,
    or_iff_right hfirst]

/-- The length of a comment is that up to the first end of it. -/
theorem commentLength?_eq_some_iff {cs : List Char} {length : Nat} :
    commentLength? cs = some length ↔
      ∃ inner rest, cs = inner ++ closing ++ rest ∧ IsClosedBy inner ∧
        length = inner.length + 3 := by
  induction cs generalizing length with
  | nil => simp [commentLength?, closing]
  | cons c cs ih =>
      rw [commentLength?]
      split
      · next hbegins =>
          have hclosed : closing <+: c :: cs :=
            List.isPrefixOf_iff_prefix.1 hbegins
          constructor
          · intro heq
            obtain ⟨rest, hrest⟩ := hclosed
            exact ⟨[], rest, hrest.symm, isClosedBy_nil,
              (Option.some.inj heq).symm⟩
          · rintro ⟨inner, rest, hcs, hinner, rfl⟩
            cases inner with
            | nil => rfl
            | cons d inner =>
                exact absurd (hcs ▸ hclosed) (hinner.not_begins rest)
      · next hbegins =>
          have hopen : ¬ closing <+: c :: cs :=
            fun h => hbegins (List.isPrefixOf_iff_prefix.2 h)
          simp only [Option.map_eq_some_iff, ih]
          constructor
          · rintro ⟨_, ⟨inner, rest, rfl, hinner, rfl⟩, rfl⟩
            exact ⟨c :: inner, rest, rfl,
              (isClosedBy_cons_iff hopen).2 hinner, by simp⟩
          · rintro ⟨inner, rest, hcs, hinner, rfl⟩
            cases inner with
            | nil => exact absurd ⟨rest, hcs.symm⟩ hopen
            | cons d inner =>
                obtain ⟨rfl, rfl⟩ := List.cons.inj hcs
                exact ⟨_, ⟨inner, rest, rfl,
                  (isClosedBy_cons_iff hopen).1 hinner, rfl⟩, by simp⟩

theorem withoutCommentsFrom_eq_drop (skip : Nat) (cs : List Char) :
    withoutCommentsFrom skip cs = withoutCommentsFrom 0 (cs.drop skip) := by
  induction cs generalizing skip with
  | nil => simp [withoutCommentsFrom]
  | cons c cs ih =>
      cases skip with
      | zero => rfl
      | succ skip =>
          rw [withoutCommentsFrom, ih, List.drop_succ_cons]

/-- A comment is left out, up to its first end. -/
theorem withoutComments_comment {inner : List Char} (h : IsClosedBy inner)
    (rest : List Char) :
    withoutCommentsFrom 0 (opening ++ inner ++ closing ++ rest) =
      withoutCommentsFrom 0 rest := by
  have hlength : commentLength? (inner ++ closing ++ rest) =
      some (inner.length + 3) :=
    commentLength?_eq_some_iff.2 ⟨inner, rest, rfl, h, rfl⟩
  have hcs : opening ++ inner ++ closing ++ rest =
      '<' :: ("!--".toList ++ (inner ++ closing ++ rest)) := by
    simp [opening]
  have hbegins : "<!--".toList.isPrefixOf
      ('<' :: ("!--".toList ++ (inner ++ closing ++ rest))) = true := by
    rw [List.isPrefixOf_iff_prefix]
    exact ⟨inner ++ closing ++ rest, rfl⟩
  have hbehind : ("!--".toList ++ (inner ++ closing ++ rest)).drop 3 =
      inner ++ closing ++ rest :=
    rfl
  rw [hcs, withoutCommentsFrom, if_pos hbegins, hbehind, hlength]
  dsimp only
  have hskip : (inner.length + 3 + 3) =
      ("!--".toList ++ inner ++ closing).length := by
    simp [closing]
  rw [withoutCommentsFrom_eq_drop, hskip, ← List.append_assoc,
    ← List.append_assoc, List.drop_left]

/-- Anything else stays. -/
theorem withoutComments_cons {c : Char} {cs : List Char}
    (h : ¬ ∃ inner rest, c :: cs = opening ++ inner ++ closing ++ rest ∧
      IsClosedBy inner) :
    withoutCommentsFrom 0 (c :: cs) = c :: withoutCommentsFrom 0 cs := by
  rw [withoutCommentsFrom]
  split
  · next hbegins =>
      split
      · next length hlength =>
          obtain ⟨text, htext⟩ := List.isPrefixOf_iff_prefix.1 hbegins
          have hdrop : cs.drop 3 = text := by
            have hcs : cs = "!--".toList ++ text := (List.cons.inj htext).2.symm
            rw [hcs]
            rfl
          rw [hdrop] at hlength
          obtain ⟨inner, rest, rfl, hinner, -⟩ :=
            commentLength?_eq_some_iff.1 hlength
          exact absurd ⟨inner, rest, by rw [← htext]; simp [opening], hinner⟩ h
      · rfl
  · rfl

/-- What is left without comments is blank exactly if there is nothing else but
blanks. -/
theorem withoutComments_blank_iff {cs : List Char} :
    (withoutCommentsFrom 0 cs).all Text.isBlank = true ↔ IsSilent cs := by
  constructor
  · intro h
    induction hn : cs.length using Nat.strongRecOn generalizing cs with
    | ind n ih =>
        cases cs with
        | nil => exact .nil
        | cons c cs =>
            by_cases hcomment : ∃ inner rest,
                c :: cs = opening ++ inner ++ closing ++ rest ∧ IsClosedBy inner
            · obtain ⟨inner, rest, hcs, hinner⟩ := hcomment
              rw [hcs, withoutComments_comment hinner] at h
              have hshort : rest.length < n := by
                rw [← hn, hcs]
                simp [opening]
                omega
              rw [hcs]
              exact .comment hinner (ih _ hshort h rfl)
            · rw [withoutComments_cons hcomment, List.all_cons,
                Bool.and_eq_true] at h
              have hshort : cs.length < n := by
                rw [← hn, List.length_cons]
                exact Nat.lt_succ_self _
              exact .blank h.1 (ih _ hshort h.2 rfl)
  · intro h
    induction h with
    | nil => rfl
    | @blank c cs hc hcs ih =>
        have hplain : ¬ ∃ inner rest, c :: cs = opening ++ inner ++
            closing ++ rest ∧
            IsClosedBy inner := by
          rintro ⟨inner, rest, heq, -⟩
          obtain ⟨rfl, -⟩ := List.cons.inj heq
          cases hc
        rw [withoutComments_cons hplain, List.all_cons, hc, ih]
        rfl
    | @comment inner rest hinner hrest ih =>
        rwa [withoutComments_comment hinner]

/-- Blanks and comments that are none have no ink. -/
theorem IsSilent.all_isBlank {cs : List Char} (h : IsSilent cs)
    (hopen : ¬ opening <:+: cs) : cs.all Text.isBlank = true := by
  induction h with
  | nil => rfl
  | @blank c cs hc hcs ih =>
      rw [List.all_cons, hc, ih fun hwithin =>
        hopen (hwithin.trans (List.suffix_cons c cs).isInfix)]
      rfl
  | comment hinner hrest ih =>
      refine absurd ?_ hopen
      rw [List.append_assoc, List.append_assoc]
      exact (List.prefix_append _ _).isInfix

end Body

/-! ### What is returned -/

namespace Source

def returned (markup : String) : List String :=
  (Text.feedLines markup).map markupLine

/-- The source of a component has the lines of its markup within its return
statement, and is the same for all markup around them. -/
theorem component_eq (r : Request) :
    ∃ front behind : String, ∀ markup : String, component r markup =
      front ++ "  return (\n" ++ String.join (returned markup) ++
        "  );\n\x7d;" ++ behind := by
  have hparts : ∃ declaration signature checks : String, ∀ markup : String,
      component r markup =
      declaration ++ "const " ++ r.name ++ " = " ++ signature ++ " => \x7b\n" ++
        String.join (r.effects.map effect) ++ "  return (\n" ++
          String.join (returned markup) ++
        "  );\n\x7d;" ++ checks ++ "\n\nexport default " ++ r.name ++ ";" := by
    simp only [component, returned]
    split
    · exact ⟨_, _, _, fun _ => rfl⟩
    · exact ⟨_, _, _, fun _ => rfl⟩
    · exact ⟨_, _, _, fun _ => rfl⟩
  have hassoc : ∀ s t u v w : String, s ++ t ++ u ++ v ++ w =
      s ++ (t ++ u ++ v ++ w) := by
    simp [String.append_assoc]
  obtain ⟨declaration, signature, checks, hcomponent⟩ := hparts
  refine ⟨declaration ++ "const " ++ r.name ++ " = " ++ signature ++
    " => \x7b\n" ++ String.join (r.effects.map effect),
    checks ++ "\n\nexport default " ++ r.name ++ ";", ?_⟩
  intro markup
  rw [hcomponent]
  exact hassoc _ checks _ r.name ";"

theorem ink_markupLine (line : String) : ink (markupLine line) = ink line := by
  rw [markupLine]
  split
  · next hblank =>
      rw [String.isEmpty_iff, Markup.trim_eq_empty_iff] at hblank
      rw [hblank]
      rfl
  · rw [Markup.ink_append, Markup.ink_append]
    have hfront : ink "    " = [] := rfl
    have hbehind : ink "\n" = [] := rfl
    rw [hfront, hbehind, List.nil_append, List.append_nil]

/-- What is returned has all the ink of the markup. -/
theorem flatMap_ink_returned (markup : String) :
    (returned markup).flatMap ink = ink markup := by
  rw [returned, List.flatMap_map, ← Markup.flatMap_ink_feedLines]
  exact List.flatMap_congr fun line _ => ink_markupLine line

end Source

namespace Body

variable {c : Config} {source : String}

/-- A tree that was expanded has only nodes that are shown. -/
theorem isShown_of_tree {e : Expansion (List Node)}
    (h : Expansion.tree c source = .ok e) :
    Node.AllTags Tag.IsShown e.result := by
  rw [Expansion.tree, Expansion.resolve] at h
  cases hread : Node.ofSource? c.options.jsx (.ofConfig c) source with
  | error err =>
      rw [hread] at h
      cases h
  | ok unrolled =>
      rw [hread] at h
      cases h
      exact Node.shown_refineNodes c []
        (Snippet.allTags_resolveNodes c []
          (Unrolling.allTags_ofSource? _ hread)) _

theorem markup_standIn_ne_empty : standIn.markup ≠ "" := by decide

/-- The body of an abbreviation that is expanded is empty where the expansion is
silent. -/
theorem markup_eq_empty_iff (c : Config) (source : String) :
    (ofAbbreviation c source).1.markup = "" ↔
      Text.trim source ≠ "" ∧
        ∃ e, expand (config c) (Text.trim source) = .ok e ∧
        IsSilent e.result.toList := by
  rw [ofAbbreviation]
  by_cases hblank : Text.trim source = ""
  · simp [hblank, markup_standIn_ne_empty]
  · rw [if_neg (by simpa using hblank)]
    cases hexpand : expand (config c) (Text.trim source) with
    | error err => simp [markup_standIn_ne_empty]
    | ok e =>
        have hmarkup :
            (ofMarkup (Text.trim (withoutComments e.result))).markup = "" ↔
            IsSilent e.result.toList := by
          rw [ofMarkup, Markup.trim_eq_empty_iff, Markup.ink_eq_nil_iff,
            Text.isAllBlank, withoutComments, String.toList_ofList,
            withoutComments_blank_iff]
        simp [hblank, hmarkup]

theorem markup_eq_empty_iff_ink (c : Config) (source : String) :
    (ofAbbreviation c source).1.markup = "" ↔
    ink (ofAbbreviation c source).1.markup = [] := by
  have hstandIn : ink standIn.markup ≠ [] := by decide
  rw [ofAbbreviation]
  split
  · simp [markup_standIn_ne_empty, hstandIn]
  · split
    · rw [ofMarkup, Markup.ink_trim]
      exact Markup.trim_eq_empty_iff
    · simp [markup_standIn_ne_empty, hstandIn]

/-- An element keeps an expansion in which no comment begins from being
silent. -/
theorem markup_ne_empty_of_element (plain : ∀ s, c.hooks.text s = s)
    {e : Expansion (List Node)}
    (h : Expansion.tree (config c) (Text.trim source) = .ok e)
    (helement : ∃ t ∈ Node.preorders e.result, t.name.isSome = true)
    (hopen : ¬ opening <:+: (Node.render (config c) e.result).toList) :
    (ofAbbreviation c source).1.markup ≠ "" := by
  rw [Ne, markup_eq_empty_iff]
  rintro ⟨-, expanded, hexpanded, hsilent⟩
  rw [expand, h] at hexpanded
  cases hexpanded
  have hblank := List.all_eq_true.1 (hsilent.all_isBlank hopen)
  obtain ⟨t, ht, hname⟩ := helement
  have hshown :
      Node.AllTags (fun t => t.name.isSome || t.value.isSome) e.result :=
    fun u hu => by
    rcases (isShown_of_tree h u hu).part with hnamed | ⟨hvalued, -⟩
    · simp [hnamed]
    · simp [hvalued]
  have hbracket :=
    Markup.opened_render (c := config c) rfl plain hshown ht hname
  cases hblank _ hbracket

/-- The markup of a component is empty exactly where an abbreviation that is not
blank can be expanded and the expansion has nothing but blanks and comments.  An
element in the final tree rules this out, unless a comment begins somewhere in
the expansion.  The return statement has all the ink of the markup, so one of
its lines is not blank exactly where the markup is not empty. -/
theorem returned_ofAbbreviation (c : Config) (source : String) :
    ((ofAbbreviation c source).1.markup = "" ↔
        Text.trim source ≠ "" ∧
          ∃ e, expand (config c) (Text.trim source) = .ok e ∧
            IsSilent e.result.toList) ∧
      (∀ e, Expansion.tree (config c) (Text.trim source) = .ok e →
        (∀ s, c.hooks.text s = s) →
        (∃ t ∈ Node.preorders e.result, t.name.isSome = true) →
        ¬ opening <:+: (Node.render (config c) e.result).toList →
          (ofAbbreviation c source).1.markup ≠ "") ∧
      (∀ r : Request, ∃ front behind : String, ∀ markup : String,
        Source.component r markup = front ++ "  return (\n" ++
          String.join (Source.returned markup) ++ "  );\n\x7d;" ++ behind) ∧
      ((∃ line ∈ Source.returned (ofAbbreviation c source).1.markup,
          Text.isAllBlank line = false) ↔
            (ofAbbreviation c source).1.markup ≠ "") := by
  refine ⟨markup_eq_empty_iff c source, fun e h plain =>
    markup_ne_empty_of_element plain h, Source.component_eq, ?_⟩
  rw [Ne, markup_eq_empty_iff_ink, ← Source.flatMap_ink_returned,
    List.flatMap_eq_nil_iff]
  push Not
  refine exists_congr fun line => and_congr_right fun _ => ?_
  rw [Ne, Markup.ink_eq_nil_iff, Bool.not_eq_true]

namespace SilenceWitness

def bare : Config := { snippets := {} }

def tokens : List Token :=
  [⟨.bracket .group true, 0, 1⟩, ⟨.bracket .group false, 1, 2⟩]

theorem tokenize_group : tokenize "()" = .ok tokens := by
  have hopen : Lexer.lexeme? {} none 0 "()".toList =
      .ok (some { kind := .bracket .group true, length := 1,
                  context := { group := 1 } }) := rfl
  have hclose : Lexer.lexeme? { group := 1 } (some '(') 1 ")".toList =
      .ok (some { kind := .bracket .group false, length := 1,
                  context := {} }) := rfl
  have hend : Lexer.tokensFrom {} (some ')') 2 [] = .ok [] := by
    rw [Lexer.tokensFrom]
    rfl
  apply Lexer.tokensFrom_of_lexeme? (by simp) hopen
  exact Lexer.tokensFrom_of_lexeme? (by simp) hclose hend

theorem tree_group : Expansion.tree (config bare) "()" = .ok ⟨[], [], 0⟩ := by
  have hresolve : Expansion.resolve (config bare) "()" = .ok ⟨[], [], 0⟩ := by
    rw [Expansion.resolve, Node.ofSource?, tokenize_group, bare]
    cbv
  rw [Expansion.tree, hresolve]
  dsimp only
  rw [Node.refine, Node.refineNodes]

theorem tokenize_paragraph : tokenize "p" = .ok [⟨.literal "p", 0, 1⟩] := by
  have hname : Lexer.lexeme? {} none 0 "p".toList =
      .ok (some { kind := .literal "p", length := 1, context := {} }) := rfl
  have hend : Lexer.tokensFrom {} (some 'p') 1 [] = .ok [] := by
    rw [Lexer.tokensFrom]
    rfl
  exact Lexer.tokensFrom_of_lexeme? (by simp) hname hend

def paragraph : Node := ⟨{ name := some "p" }, []⟩

theorem tree_paragraph :
    Expansion.tree (config bare) "p" = .ok ⟨[paragraph], [], 0⟩ := by
  have hresolve : Expansion.resolve (config bare) "p" =
      .ok ⟨[paragraph], [], 0⟩ := by
    rw [Expansion.resolve, Node.ofSource?, tokenize_paragraph, bare]
    cbv
  have hrefine : Node.refine (config bare) [paragraph] = [paragraph] := by
    rw [bare, paragraph]
    cbv
  rw [Expansion.tree, hresolve]
  dsimp only
  rw [hrefine]

/-- A paragraph is shown. -/
theorem returned_ofAbbreviation_paragraph :
    (Expansion.tree (config bare) (Text.trim "p") = .ok ⟨[paragraph], [], 0⟩ ∧
        (∀ s, bare.hooks.text s = s) ∧
          (∃ t ∈ Node.preorders [paragraph], t.name.isSome = true) ∧
        ¬ opening <:+: (Node.render (config bare) [paragraph]).toList) ∧
      (ofAbbreviation bare "p").1.markup ≠ "" := by
  have htrim : Text.trim "p" = "p" := by decide
  have htree : Expansion.tree (config bare) (Text.trim "p") =
      .ok ⟨[paragraph], [], 0⟩ := by
    rw [htrim, tree_paragraph]
  have hplain : ∀ s, bare.hooks.text s = s := fun _ => rfl
  have helement : ∃ t ∈ Node.preorders [paragraph], t.name.isSome = true := by
    rw [paragraph]
    simp
  have hopen :
      ¬ opening <:+: (Node.render (config bare) [paragraph]).toList := by
    have hrender : Node.render (config bare) [paragraph] = "<p></p>" := by
      decide +kernel
    rw [hrender]
    decide
  exact ⟨⟨htree, hplain, helement, hopen⟩,
    (returned_ofAbbreviation bare "p").2.1 _ htree hplain helement hopen⟩

/-- A group without statements is no blank abbreviation and can be expanded, and
the component returns nothing. -/
theorem group_returns_nothing :
    (ofAbbreviation bare "()").1.markup = "" ∧
      Source.returned (ofAbbreviation bare "()").1.markup = [] := by
  have htrim : Text.trim "()" = "()" := by decide
  have hexpand : expand (config bare) "()" = .ok ⟨"", [], 0⟩ := by
    have hrender : Node.render (config bare) [] = "" := by decide +kernel
    rw [expand, tree_group]
    dsimp only
    rw [hrender]
  have hmarkup : (ofAbbreviation bare "()").1.markup = "" := by
    rw [markup_eq_empty_iff, htrim]
    exact ⟨by decide, _, hexpand, .nil⟩
  rw [hmarkup]
  exact ⟨rfl, rfl⟩

end SilenceWitness

end Body

end Scaffold.Component

import Scaffold.Expansion
import Scaffold.Proofs.Bem.Shorthand
import Scaffold.Proofs.Node.Pairing
import Scaffold.Proofs.Refinement.Arranging
import Scaffold.Proofs.Refinement.Settling
import Scaffold.Proofs.Token.TextBody
/-!
Element shorthands over a whole tree.  A node passes the block that its only
class names down to the nodes below it, and these put it in front of their
shorthands.  What refinement does before leaves the class names of a node as
they are, unless the node becomes placeholder text.  Main statement:
`refine_expands_shorthands`.
-/
namespace Scaffold

/-- A tag stays an element: neither it nor what the table may call it asks for
placeholder text, or in any case it still has attributes in the end. -/
def Tag.Remains (c : Config) (t u : Tag) : Prop :=
  (t.IsOrdinary ∧ (t.name = none → c.implicitTags.All Lorem.IsOrdinary)) ∨
    u.attributes.isSome = true

namespace Node

/-! ### What comes to the expansion of class names -/

section Arranging

variable {σ : Type} [Random.Source σ] (c : Config) (above : List Frame)

/-- Leaving out other attributes leaves the declarations of classes. -/
theorem declarations_filter {name : String} {p : Attribute → Bool}
    (hp : ∀ a : Attribute, a.hasName name = true → p a = true)
    (attributes : List Attribute) :
    Attribute.declarations name (attributes.filter p) =
      Attribute.declarations name attributes := by
  rw [Attribute.declarations, Attribute.declarations, List.filter_filter]
  apply List.filter_congr
  intro a _
  cases ha : a.hasName name with
  | false => rfl
  | true => simp [hp a ha]

theorem hasName_eq_false {a : Attribute} {name other : String}
    (hne : name ≠ other) (ha : a.hasName name = true) :
    a.hasName other = false := by
  rw [Attribute.hasName, Attribute.hasName_iff.1 ha]
  simpa using hne

theorem declarations_withoutVacant {name : String} (hname : "class" ≠ name)
    (t : Tag) :
    Attribute.declarations "class" (withoutVacant name t).attributeList =
      Attribute.declarations "class" t.attributeList := by
  rw [withoutVacant, Tag.attributeList_filter]
  apply declarations_filter
  intro a ha
  rw [hasName_eq_false hname ha]
  rfl

theorem declarations_dropSelect (t : Tag) (hasChildren : Bool) :
    Attribute.declarations "class" (dropSelect t hasChildren).attributeList =
      Attribute.declarations "class" t.attributeList := by
  rw [dropSelect]
  split
  · rw [Tag.attributeList_filter]
    apply declarations_filter
    intro a ha
    rw [hasName_eq_false (by decide) ha]
    rfl
  · rfl

theorem declarations_relabel (t : Tag) (children : List Node) :
    Attribute.declarations "class" (relabel t children).1.attributeList =
      Attribute.declarations "class" t.attributeList := by
  rw [relabel]
  split
  · split
    · exact declarations_withoutVacant (by decide) t
    · rfl
  · rfl

variable {c above}

/-- A tag that stays an element has all its class names when these are
expanded. -/
theorem written_arranged {t u : Tag} {hasChildren : Bool} {s : σ}
    (hsame : (arranged c above t hasChildren s).1.SameButAttributes u)
    (h : t.Remains c u) :
    Bem.written (arranged c above t hasChildren s).1 = t.classNames := by
  have hattributes : (nameImplicitly c above t).attributeList =
      t.attributeList := by
    rw [nameImplicitly]
    split <;> rfl
  have hmerged : Bem.written (mergeAttributes c (nameImplicitly c above t)) =
      t.classNames := by
    rw [Bem.written_of_merged (Snippet.attributeList_mergeAttributes c _),
      Tag.classNames, hattributes, Tag.classNames]
  rcases fillLorem_cases c above
    (mergeAttributes c (nameImplicitly c above t)) s with
    hplain | ⟨hfilled, hasked⟩
  · rw [← hmerged]
    apply Bem.written_congr
    rw [arranged]
    dsimp only
    rw [hplain]
    split
    · exact declarations_dropSelect _ _
    · rfl
  · -- what was filled has no attributes in the end, so the tag asked for it
    have hnone : u.attributes.isSome = false := by
      rw [hsame.attributes, sameButAttributes_arranged.attributes, hfilled]
      rfl
    rcases h with ⟨hordinary, htable⟩ | hsome
    · refine absurd ?_ hasked
      cases hname : t.name with
      | none => exact isOrdinary_nameImplicitly above (htable hname) hordinary
      | some name =>
          have hkept : nameImplicitly c above t = t := by
            simp [nameImplicitly, hname]
          rw [hkept]
          exact hordinary
    · rw [hnone] at hsome
      cases hsome

end Arranging

/-! ### Shorthands -/

open Bem

/-- Below a tag whose only class names a block, a tag whose only class is a
shorthand has what that comes to, as long as both stay elements. -/
def ExpandsShorthand (c : Config) (above : Option (Tag × Tag)) (t u : Tag) :
    Prop :=
  ∀ p ∈ above, p.1.Remains c p.2 → t.Remains c u →
    ∀ b e, IsBlockName b → IsElementName e → p.1.classNames = [b] →
      t.classNames = ["-" ++ e] →
      ∃ a, u.find? "class" = some a ∧
        a.value = some [.text (shorthandClass c.options.bem b e)]

/-- The innermost frame has the block that the tags above name. -/
def HasBlock (c : Config) (pair : Option (Tag × Tag)) (above : List Frame) :
    Prop :=
  ∀ p ∈ pair, p.1.Remains c p.2 → ∀ b, IsBlockName b → p.1.classNames = [b] →
    ∃ f rest, above = f :: rest ∧ f.classes.block = some b

variable {c : Config}

theorem overlooks_expandsShorthand :
    Overlooks (ExpandsShorthand c) (withoutVacant "id") := by
  have hnames : ∀ t : Tag, (withoutVacant "id" t).classNames = t.classNames :=
    fun t => by
    rw [Tag.classNames, declarations_withoutVacant (by decide), Tag.classNames]
  exact
    { tag := fun above t u h p hp hremains ht b e hb he hblock hclass =>
        h p hp hremains ht b e hb he hblock ((hnames t).trans hclass)
      above := fun t u v w h p hp hremains hv b e hb he hblock hclass => by
        obtain rfl : p = (t, u) := (Option.mem_some_iff.1 hp).symm
        exact h _ rfl hremains hv b e hb he ((hnames t).trans hblock) hclass }

theorem expandClasses_of_enabled (henabled : c.options.bem.enabled = true)
    (above : List Frame) (t : Tag) :
    expandClasses c above t =
      Bem.expand c.options.bem (above.map (·.classes)) t := by
  rw [expandClasses, if_pos henabled]

section Refining

variable {σ : Type} [Random.Source σ]

/-- One tag: its shorthand is expanded by the block above, and it hands on the
block that it names. -/
theorem expandsShorthand_expandClasses (henabled : c.options.bem.enabled = true)
    {pair : Option (Tag × Tag)} {above : List Frame}
    (habove : HasBlock c pair above) {t v : Tag}
    (hwritten : t.Remains c (expandClasses c above v).1 →
      written v = t.classNames) :
    ExpandsShorthand c pair t (expandClasses c above v).1 ∧
      HasBlock c (some (t, (expandClasses c above v).1))
        (⟨(expandClasses c above v).1.name, (expandClasses c above v).1.copy,
          (expandClasses c above v).2⟩ :: above) := by
  constructor
  · intro p hp hremains ht b e hb he hblock hclass
    obtain ⟨f, rest, rfl, hf⟩ := habove p hp hremains b hb hblock
    rw [expandClasses_of_enabled henabled]
    exact find?_expand hb he ((hwritten ht).trans hclass) hf _
  · intro p hp hremains b hb hblock
    obtain rfl : p = _ := (Option.mem_some_iff.1 hp).symm
    refine ⟨_, above, rfl, ?_⟩
    have hclasses := classesOf_block hb ((hwritten hremains).trans hblock)
    rw [expandClasses_of_enabled henabled, Bem.expand]
    exact congrArg Classes.block hclasses

mutual

/-- One node: its own shorthand, and those of the nodes below it. -/
theorem paired_refineNode (henabled : c.options.bem.enabled = true)
    {pair : Option (Tag × Tag)} {above : List Frame}
    (habove : HasBlock c pair above) (n : Node) (s : σ) :
    Paired (ExpandsShorthand c) pair n (refineNode c above n s).1 := by
  match n with
  | ⟨t, children⟩ =>
      have hlabelled := sameButAttributes_relabel
        (arranged c above t (!children.isEmpty) s).1 children
      have hsame := hlabelled.trans (sameButAttributes_expandClasses c above _)
      obtain ⟨htag, hbelow⟩ :=
        expandsShorthand_expandClasses henabled habove (t := t)
          (v := (relabel
            (arranged c above t (!children.isEmpty) s).1 children).1)
          fun hremains => (written_congr (declarations_relabel _ _)).trans
            (written_arranged hsame hremains)
      rw [refineNode_arranged]
      exact ⟨htag, .of_relabel overlooks_expandsShorthand
        (allPaired_refineNodes henabled hbelow _ _)⟩
termination_by 2 * size n + 1
decreasing_by
  simp [size]
  omega

theorem allPaired_refineNodes (henabled : c.options.bem.enabled = true)
    {pair : Option (Tag × Tag)} {above : List Frame}
    (habove : HasBlock c pair above) (ns : List Node) (s : σ) :
    AllPaired (ExpandsShorthand c) pair ns (refineNodes c above ns s).1 := by
  match ns with
  | [] =>
      rw [refineNodes]
      trivial
  | n :: ns =>
      rw [refineNodes]
      exact ⟨paired_refineNode henabled habove n s,
        allPaired_refineNodes henabled habove ns _⟩
termination_by 2 * sizes ns + 2
decreasing_by
  · simp only [sizes]
    omega
  · simp [sizes]
    exact size_pos _

end

end Refining

/-- In the whole tree, a shorthand below a block comes to the block, the
separator and the element as far as that goes: all of it exactly if the element
has only ASCII letters, digits and dashes, or what folds to such letters. -/
theorem refine_expands_shorthands {c : Config}
    (henabled : c.options.bem.enabled = true) (nodes : List Node) :
    AllPaired (ExpandsShorthand c) none nodes (refine c nodes) ∧
      ∀ b e, IsBlockName b → IsElementName e →
        (shorthandClass c.options.bem b e = b ++ c.options.bem.element ++ e ↔
          ∀ ch ∈ e.toList, isElementChar ch = true) := by
  have htop : HasBlock c none [] := by
    rintro p ⟨⟩
  refine ⟨allPaired_refineNodes henabled htop nodes _, ?_⟩
  intro b e hb he
  exact shorthandClass_eq_iff c.options.bem hb he

namespace ElementsWitness

/-- No snippets, and class names are expanded. -/
def config : Config :=
  { snippets := {}, options := { bem := { enabled := true } } }

def classed (name : String) (children : List Node) : Node :=
  ⟨{ name := some "div"
     attributes :=
       some [{ name := some "class", value := some [.text name] }] }, children⟩

theorem classNames_classed (name : String) (children : List Node) :
    (classed name children).tag.classNames = Text.words name := by
  simp [classed, Tag.classNames, Attribute.declarations, Attribute.hasName,
    Tag.attributeList, Attribute.valueText, Piece.plainText, Piece.plain]

def titled : List Node := [classed "card" [classed "-title" []]]

theorem refine_titled :
    refine config titled = [classed "card" [classed "card__title" []]] := by
  rw [config, titled, classed, classed, classed, classed]
  cbv

/-- The title is an element of the card. -/
theorem refine_expands_shorthands_title :
    config.options.bem.enabled = true ∧
      AllPaired (ExpandsShorthand config) none titled (refine config titled) ∧
      refine config titled = [classed "card" [classed "card__title" []]] ∧
      (shorthandClass config.options.bem "card" "title" =
          "card" ++ config.options.bem.element ++ "title" ↔
        ∀ ch ∈ "title".toList, isElementChar ch = true) := by
  have henabled : config.options.bem.enabled = true := rfl
  exact ⟨henabled, (refine_expands_shorthands henabled titled).1, refine_titled,
    (refine_expands_shorthands henabled titled).2 "card" "title" (by decide)
      (by decide)⟩

/-- A card with an element whose name ends in a letter beyond ASCII. -/
def sized : List Node := [classed "card" [classed "-menü" []]]

theorem refine_sized :
    refine config sized = [classed "card" [classed "card__men" []]] := by
  rw [config, sized, classed, classed, classed, classed]
  cbv

def tokens : List Token :=
  [⟨.literal "div", 0, 3⟩, ⟨.operator .className, 3, 4⟩,
    ⟨.literal "card", 4, 8⟩, ⟨.operator .child, 8, 9⟩, ⟨.literal "div", 9, 12⟩,
    ⟨.operator .className, 12, 13⟩, ⟨.literal "-menü", 13, 18⟩]

theorem tokenize_sized : tokenize "div.card>div.-menü" = .ok tokens := by
  have houter : Lexer.lexeme? {} none 0 "div.card>div.-menü".toList =
      .ok (some { kind := .literal "div", length := 3, context := {} }) := rfl
  have hdot : Lexer.lexeme? {} (some 'v') 3 ".card>div.-menü".toList =
      .ok (some { kind := .operator .className, length := 1, context := {} }) :=
    rfl
  have hblock : Lexer.lexeme? {} (some '.') 4 "card>div.-menü".toList =
      .ok (some { kind := .literal "card", length := 4, context := {} }) := rfl
  have hchild : Lexer.lexeme? {} (some 'd') 8 ">div.-menü".toList =
      .ok (some { kind := .operator .child, length := 1, context := {} }) := rfl
  have hinner : Lexer.lexeme? {} (some '>') 9 "div.-menü".toList =
      .ok (some { kind := .literal "div", length := 3, context := {} }) := rfl
  have hdot' : Lexer.lexeme? {} (some 'v') 12 ".-menü".toList =
      .ok (some { kind := .operator .className, length := 1, context := {} }) :=
    rfl
  have helement : Lexer.lexeme? {} (some '.') 13 "-menü".toList =
      .ok (some { kind := .literal "-menü", length := 5, context := {} }) := rfl
  have hend : Lexer.tokensFrom {} (some 'ü') 18 [] = .ok [] := by
    rw [Lexer.tokensFrom]
    rfl
  apply Lexer.tokensFrom_of_lexeme? (by simp) houter
  apply Lexer.tokensFrom_of_lexeme? (by simp) hdot
  apply Lexer.tokensFrom_of_lexeme? (by simp) hblock
  apply Lexer.tokensFrom_of_lexeme? (by simp) hchild
  apply Lexer.tokensFrom_of_lexeme? (by simp) hinner
  apply Lexer.tokensFrom_of_lexeme? (by simp) hdot'
  exact Lexer.tokensFrom_of_lexeme? (by simp) helement hend

theorem tree_sized : Expansion.tree config "div.card>div.-menü" =
    .ok ⟨[classed "card" [classed "card__men" []]], [], 0⟩ := by
  have hresolve : Expansion.resolve config "div.card>div.-menü" =
      .ok ⟨sized, [], 0⟩ := by
    rw [Expansion.resolve, Node.ofSource?, tokenize_sized, config, sized,
      classed, classed]
    cbv
  rw [Expansion.tree, hresolve, ← refine_sized]

/-- A letter beyond ASCII, and all that would follow it, is lost. -/
theorem element_cut :
    (IsBlockName "card" ∧ IsElementName "menü" ∧
      (classed "card" []).tag.classNames = ["card"] ∧
        (classed "-menü" []).tag.classNames = ["-menü"]) ∧
      refine config sized = [classed "card" [classed "card__men" []]] ∧
      refine config sized ≠
        [classed "card"
          [classed ("card" ++ config.options.bem.element ++ "menü") []]] ∧
      (expand config "div.card>div.-menü").map (·.result) =
        .ok
          "<div class=\"card\">\n\t<div class=\"card__men\"></div>\n</div>" := by
  have hcard : Text.words "card" = ["card"] := by decide +kernel
  have helement : Text.words "-menü" = ["-menü"] := by decide +kernel
  have hmarkup : Node.render config [classed "card" [classed "card__men" []]] =
      "<div class=\"card\">\n\t<div class=\"card__men\"></div>\n</div>" := by
    decide +kernel
  refine ⟨⟨by decide, by decide, ?_, ?_⟩, refine_sized, ?_, ?_⟩
  · rw [classNames_classed, hcard]
  · rw [classNames_classed, helement]
  · rw [refine_sized]
    simp [classed, config]
  · rw [expand, tree_sized]
    exact congrArg Except.ok hmarkup

end ElementsWitness

end Node

end Scaffold

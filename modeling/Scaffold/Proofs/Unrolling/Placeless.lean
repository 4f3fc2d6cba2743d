import Scaffold.Proofs.Repeat.Unrolling
import Scaffold.Proofs.Unrolling.Landing
/-!
Statements without a place for the text.  What they come to can depend on the
replacement text only through the number of copies, and not at all once a count
is written out for each repeater; and a mark on a copy does not change what is
written in it.
-/
namespace Scaffold

namespace Statement

mutual

def hasPlace : Statement → Bool
  | element e children => e.tokens.any Token.isPlace || anyPlace children
  | group children _ => anyPlace children

def anyPlace : List Statement → Bool
  | [] => false
  | t :: ts => hasPlace t || anyPlace ts

end

end Statement

theorem ElementTokens.hasPlace_eq (e : ElementTokens) :
    e.tokens.any Token.isPlace = (e.headHasPlace || e.attributesHavePlace) := by
  have hattributes : ((e.attributes.getD []).flatMap AttributeTokens.tokens).any
      Token.isPlace =
      e.attributesHavePlace := by
    rw [List.any_flatMap, ElementTokens.attributesHavePlace]
    congr 1
    funext a
    rw [AttributeTokens.tokens, List.any_append, AttributeTokens.hasPlace]
  rw [ElementTokens.tokens, List.any_append, List.any_append, hattributes]
  rfl

namespace Unrolling

/-! ### Explicit repeaters and no place -/

mutual

/-- Text lands only in a place or in the copies of a bare repeater. -/
theorem lands_of_isExplicit {t : Statement} (explicit : isExplicit t = true) :
    t.lands = t.hasPlace := by
  match t with
  | .element e children =>
      rw [isExplicit, Bool.and_eq_true] at explicit
      have hbare : e.repeater.any (·.implicit) = false := by
        cases hr : e.repeater with
        | none => rfl
        | some r => simpa [isExplicitRepeater, hr] using explicit.1
      rw [Statement.lands, Statement.hasPlace, hbare,
        anyLands_of_isExplicitForest explicit.2, e.hasPlace_eq, Bool.false_or,
        Bool.or_assoc, Bool.or_assoc, Bool.or_comm e.attributesHavePlace]
  | .group children r =>
      rw [isExplicit, Bool.and_eq_true] at explicit
      have hbare : r.any (·.implicit) = false := by
        cases r with
        | none => rfl
        | some r => simpa [isExplicitRepeater] using explicit.1
      rw [Statement.lands, Statement.hasPlace, hbare,
        anyLands_of_isExplicitForest explicit.2, Bool.false_or]

theorem anyLands_of_isExplicitForest {ts : List Statement}
    (explicit : isExplicitForest ts = true) :
    Statement.anyLands ts = Statement.anyPlace ts := by
  match ts with
  | [] => rfl
  | t :: ts =>
      rw [isExplicitForest, Bool.and_eq_true] at explicit
      rw [Statement.anyLands, Statement.anyPlace,
        lands_of_isExplicit explicit.1, anyLands_of_isExplicitForest explicit.2]

end

/-! ### What tokens come to -/

section Tokens

variable {s s' : Settings} {chain chain' : Chain}

theorem nameText_congr {tokens : List Token}
    (h : ∀ tok ∈ tokens, tokenText s chain tok = tokenText s' chain' tok) :
    nameText s chain tokens = nameText s' chain' tokens := by
  rw [nameText, nameText, List.map_congr_left h]

theorem piecesFrom_congr {tokens : List Token}
    (h : ∀ tok ∈ tokens, tokenText s chain tok = tokenText s' chain' tok)
    (front : String) :
    piecesFrom s chain front tokens = piecesFrom s' chain' front tokens := by
  induction tokens generalizing front with
  | nil => rfl
  | cons t ts ih =>
      rw [List.forall_mem_cons] at h
      rw [piecesFrom, piecesFrom, h.1]
      simp only [ih h.2]

theorem mem_of_mem_unwrapValue {plain : ValueKind} {tokens : List Token}
    {tok : Token} (htok : tok ∈ (unwrapValue plain tokens).1) :
    tok ∈ tokens := by
  have hdrop : ∀ (test : Token → Bool) (ts : List Token),
      tok ∈ dropLastIf test ts → tok ∈ ts := by
    intro test ts hts
    rw [dropLastIf] at hts
    split at hts
    · split at hts
      · exact (List.dropLast_sublist ts).subset hts
      · exact hts
    · exact hts
  cases tokens with
  | nil => cases htok
  | cons t ts =>
      rw [unwrapValue] at htok
      split at htok
      · exact List.mem_cons_of_mem _ (hdrop _ _ htok)
      · exact List.mem_cons_of_mem _ (hdrop _ _ htok)
      · exact htok

theorem attributeOf_congr {a : AttributeTokens}
    (h : ∀ tok ∈ a.tokens, tokenText s chain tok = tokenText s' chain' tok) :
    attributeOf s chain a = attributeOf s' chain' a := by
  have hname : a.name.map (fun tokens => (nameText s chain tokens).toList) =
      a.name.map (fun tokens => (nameText s' chain' tokens).toList) := by
    cases hsome : a.name with
    | none => rfl
    | some tokens =>
        have htokens := nameText_congr fun tok htok => h tok
          (List.mem_append_left _ (by rw [hsome]; exact htok))
        exact congrArg (fun text => some (String.toList text)) htokens
  rw [attributeOf, attributeOf, hname]
  cases hsome : a.value with
  | none => rfl
  | some tokens =>
      have hpieces : ∀ plain, pieces s chain (unwrapValue plain tokens).1 =
          pieces s' chain' (unwrapValue plain tokens).1 := by
        intro plain
        refine piecesFrom_congr (fun tok htok =>
          h tok (List.mem_append_right _ ?_)) ""
        rw [hsome]
        exact mem_of_mem_unwrapValue htok
      simp only [hpieces]

/-- The tag of an element depends on what its tokens come to. -/
theorem elementTag_congr_tokens {e : ElementTokens}
    (h : ∀ tok ∈ e.tokens, tokenText s chain tok = tokenText s' chain' tok)
    (copy : Option Repeat) :
    elementTag s chain copy e = elementTag s' chain' copy e := by
  have hname : e.name.map (nameText s chain) =
      e.name.map (nameText s' chain') := by
    cases hsome : e.name with
    | none => rfl
    | some tokens =>
        have htokens := nameText_congr fun tok htok => h tok
          (List.mem_append_left
            _ (List.mem_append_left _ (by rw [hsome]; exact htok)))
        exact congrArg some htokens
  have hvalue : e.value.map (pieces s chain) =
      e.value.map (pieces s' chain') := by
    cases hsome : e.value with
    | none => rfl
    | some tokens =>
        have htokens := piecesFrom_congr (fun tok htok => h tok
          (List.mem_append_left
            _ (List.mem_append_right _ (by rw [hsome]; exact htok)))) ""
        exact congrArg some htokens
  have hattributes : e.attributes.map (·.map (attributeOf s chain)) =
      e.attributes.map (·.map (attributeOf s' chain')) := by
    cases hsome : e.attributes with
    | none => rfl
    | some attributes =>
        refine congrArg some (List.map_congr_left fun a ha =>
          attributeOf_congr fun tok htok => ?_)
        exact h tok (List.mem_append_right _ (by
          rw [hsome]
          exact List.mem_flatMap.2 ⟨a, ha, htok⟩))
  rw [elementTag, elementTag, bareTag, bareTag, hname, hvalue, hattributes]

/-- Only a place for the text comes to something else without text, or in copies
with other marks. -/
theorem tokenText_placeless
    (hchain : chain.map Repeat.counted = chain'.map Repeat.counted)
    {tok : Token} (hplace : tok.isPlace = false) :
    tokenText s chain tok = tokenText { s with text := none } chain' tok := by
  have hvalue : ∀ n, numberValue n chain = numberValue n chain' := by
    intro n
    rw [← numberValue_map_counted, hchain, numberValue_map_counted]
  rw [tokenText, tokenText]
  cases hkind : tok.kind with
  | textPlaceholder =>
      rw [Token.isPlace, hkind] at hplace
      cases hplace
  | number n => exact congrArg (Numeral.padded n.width) (hvalue n)
  | field index name => cases index <;> rfl
  | _ => rfl

end Tokens

section Forests

variable (s : Settings) {chain chain' : Chain}

theorem plainElement_placeless
    (hchain : chain.map Repeat.counted = chain'.map Repeat.counted)
    {e : ElementTokens} (hplace : e.tokens.any Token.isPlace = false)
    (copy : Option Repeat) (below : List Node) :
    plainElement s chain copy e below =
      plainElement { s with text := none } chain' copy e below := by
  have htag : elementTag s chain copy e =
      elementTag { s with text := none } chain' copy e :=
    elementTag_congr_tokens (fun tok htok => tokenText_placeless hchain
      (by simpa using List.any_eq_false.1 hplace tok htok)) copy
  change (let tag := elementTag s chain copy e
    if tag.isText && tag.value.isSome && !tag.hasField then ⟨tag, []⟩ :: below
    else [⟨tag, below⟩]) = _
  rw [htag]
  rfl

theorem plainCopies_congr {once once' : Option Repeat → Chain → List Node}
    (honce : ∀ copy {chain chain' : Chain}, chain.map Repeat.counted =
      chain'.map Repeat.counted → once copy chain = once' copy chain')
    (hchain : chain.map Repeat.counted = chain'.map Repeat.counted)
    (r : Option Repeater) :
    plainCopies chain r once = plainCopies chain' r once' := by
  cases r with
  | none => exact honce none hchain
  | some r =>
      apply List.flatMap_congr
      intro i _
      exact honce _ (by rw [List.map_cons, List.map_cons, hchain])

mutual

theorem plainNodes_placeless {chain chain' : Chain}
    (hchain : chain.map Repeat.counted = chain'.map Repeat.counted)
    {t : Statement} (hplace : t.hasPlace = false) :
    plainNodes s chain t = plainNodes { s with text := none } chain' t := by
  match t with
  | .element e children =>
      rw [Statement.hasPlace, Bool.or_eq_false_iff] at hplace
      rw [plainNodes, plainNodes]
      refine plainCopies_congr ?_ hchain e.repeater
      intro copy chain chain' hchain
      rw [plainForest_placeless hchain hplace.2,
        plainElement_placeless s hchain hplace.1]
  | .group children r =>
      rw [plainNodes, plainNodes]
      refine plainCopies_congr ?_ hchain r
      intro copy chain chain' hchain
      rw [plainForest_placeless hchain hplace]

theorem plainForest_placeless {chain chain' : Chain}
    (hchain : chain.map Repeat.counted = chain'.map Repeat.counted)
    {ts : List Statement} (hplace : Statement.anyPlace ts = false) :
    plainForest s chain ts = plainForest { s with text := none } chain' ts := by
  match ts with
  | [] => rfl
  | t :: ts =>
      rw [Statement.anyPlace, Bool.or_eq_false_iff] at hplace
      rw [plainForest, plainForest, plainNodes_placeless hchain hplace.1,
        plainForest_placeless hchain hplace.2]

end

end Forests

end Unrolling

end Scaffold

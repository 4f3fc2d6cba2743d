import Scaffold.Proofs.Refinement.Passes
/-!
Refinement with placeholder text.  A tag gets a name, has its attributes put in
order and is replaced by the placeholder text that it may ask for; only then
come labels, class names and the nodes below. Main statements:
`refineNode_arranged`, `fillLorem_cases`.
-/
namespace Scaffold.Node

variable {σ : Type} [Random.Source σ] (c : Config) (above : List Frame)

/-- A tag with a name and with its attributes in order, or the placeholder text
that it asks for. -/
def arranged (t : Tag) (hasChildren : Bool) (s : σ) : Tag × σ :=
  let (u, s) :=
    fillLorem c above (mergeAttributes c (nameImplicitly c above t)) s
  (if c.dialect = .xsl then dropSelect u hasChildren else u, s)

theorem refineNode_arranged (t : Tag) (children : List Node) (s : σ) :
    (refineNode c above ⟨t, children⟩ s).1 =
      let arranged := arranged c above t (!children.isEmpty) s
      let labelled := relabel arranged.1 children
      let (tag, classes) := expandClasses c above labelled.1
      ⟨tag, (refineNodes c (⟨tag.name, tag.copy, classes⟩ :: above) labelled.2
        arranged.2).1⟩ := by
  rw [refineNode]
  rfl

/-- A tag either asks for placeholder text, and has no attributes from then on,
or stays as it is. -/
theorem fillLorem_cases (t : Tag) (s : σ) :
    (fillLorem c above t s).1 = t ∨
      (fillLorem c above t s).1.attributes = none ∧ ¬ t.IsOrdinary := by
  rw [fillLorem]
  split
  · exact .inl rfl
  · next request hrequest =>
      right
      obtain ⟨name, hname, hasks⟩ := Option.bind_eq_some_iff.1 hrequest
      have hasked : ¬ t.IsOrdinary := fun h => by
        have hnone : Lorem.Request.ofName? name = none := h name hname
        rw [hasks] at hnone
        cases hnone
      dsimp only
      split <;> exact ⟨rfl, hasked⟩

variable {c above}

theorem sameButAttributes_arranged {t : Tag} {hasChildren : Bool} {s : σ} :
    (fillLorem c above (mergeAttributes c (nameImplicitly c above t))
      s).1.SameButAttributes
      (arranged c above t hasChildren s).1 := by
  rw [arranged]
  dsimp only
  split
  · exact sameButAttributes_dropSelect _ _
  · exact .refl _

/-- Whether placeholder text has its vocabulary's opening: it is in no copy, or
the innermost repeated node around it is in its first copy. -/
def opensText (above : List Frame) (t : Tag) : Bool :=
  ((t.copy.or (above.findSome? (·.copy))).map (·.value == 0)).getD true

theorem value_fillLorem {t : Tag} {request : Lorem.Request} {text : String}
    {s s' : σ} (hrequest : t.name.bind Lorem.Request.ofName? = some request)
    (h : request.draw Lorem.attempts (opensText above t) s = some (text, s')) :
    (fillLorem c above t s).1.value = some [.text text] := by
  rw [opensText] at h
  rw [fillLorem, hrequest]
  dsimp only
  rw [h]
  dsimp only [Option.getD_some]
  split <;> rfl

/-- A node that asks for placeholder text has the text that is drawn as its
value. -/
theorem value_refineNode {t : Tag} {request : Lorem.Request}
    {name text : String} {s s' : σ} (hname : t.name = some name)
    (hrequest : Lorem.Request.ofName? name = some request)
    (h : request.draw Lorem.attempts (opensText above t) s = some (text, s'))
    (children : List Node) :
    (refineNode c above ⟨t, children⟩ s).1.tag.value = some [.text text] := by
  have hkept : nameImplicitly c above t = t := by simp [nameImplicitly, hname]
  have hasks : (mergeAttributes c t).name.bind Lorem.Request.ofName? =
      some request := by
    rw [mergeAttributes, hname]
    exact hrequest
  have hfilled : (fillLorem c above
      (mergeAttributes c (nameImplicitly c above t)) s).1.value =
      some [.text text] := by
    rw [hkept]
    exact value_fillLorem hasks h
  have hlabelled := sameButAttributes_relabel
    (arranged c above t (!children.isEmpty) s).1 children
  have hsame := (sameButAttributes_arranged.trans hlabelled).trans
    (sameButAttributes_expandClasses c above _)
  rw [refineNode_arranged]
  exact hsame.value.trans hfilled

end Scaffold.Node

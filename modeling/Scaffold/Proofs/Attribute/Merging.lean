import Mathlib
import Scaffold.Attribute.Merge
import Scaffold.Proofs.Text.Blank
/-!
Merging attributes as a fold over the declarations of each name.  A merged list
starts with its first declaration, into which all others of the same name went,
and goes on with what the remaining ones come to.  So every name is there once,
at the place of its first declaration, and what is said of a name depends on its
own declarations alone.  Main statement: `merge_keyed`.
-/
namespace Scaffold

namespace Piece

theorem plainText_pushPiece (ps : List Piece) (p : Piece) :
    plainText (Attribute.pushPiece ps p) = plainText ps ++ p.plain := by
  cases p with
  | field index name =>
      rw [Attribute.pushPiece, plainText_append, plainText_singleton]
  | text s =>
      rw [Attribute.pushPiece, appendText]
      split
      · next last hlast =>
          have hps : ps = ps.dropLast ++ [text last] :=
            (List.dropLast_append_getLast? _ hlast).symm
          rw [plainText_append, plainText_singleton]
          conv_rhs => rw [hps, plainText_append, plainText_singleton]
          exact (String.append_assoc ..).symm
      · rw [plainText_append, plainText_singleton]

theorem plainText_foldl_pushPiece (ps qs : List Piece) :
    plainText (qs.foldl Attribute.pushPiece ps) = plainText ps ++
      plainText qs := by
  induction qs generalizing ps with
  | nil => simp [plainText]
  | cons q qs ih =>
      rw [List.foldl_cons, ih, plainText_pushPiece, String.append_assoc,
        ← List.singleton_append, plainText_append, plainText_singleton]

end Piece

namespace Attribute

variable {keepFirst : Bool}

def declarations (name : String) (declared : List Attribute) : List Attribute :=
  declared.filter (·.hasName name)

def redeclaredBy (a b : Attribute) : Bool := a.name.any b.hasName

theorem name_combine (a b : Attribute) :
    (combine keepFirst a b).name = a.name := by
  rw [combine]
  split <;> rfl

theorem redeclaredBy_combine (a b : Attribute) :
    (combine keepFirst a b).redeclaredBy = a.redeclaredBy := by
  funext d
  rw [redeclaredBy, name_combine, redeclaredBy]

theorem hasName_iff {a : Attribute} {name : String} :
    a.hasName name = true ↔ a.name = some name := by
  simp [hasName]

theorem redeclaredBy_of_name {a : Attribute} {name : String}
    (ha : a.name = some name) : a.redeclaredBy = (·.hasName name) := by
  funext b
  rw [redeclaredBy, ha, Option.any_some]

theorem redeclaredBy_of_nameless {a : Attribute} (ha : a.name = none) :
    a.redeclaredBy = fun _ => false := by
  funext b
  rw [redeclaredBy, ha, Option.any_none]

theorem redeclaredBy_eq_false {a b : Attribute}
    (h : ∀ name, a.name = some name → b.name ≠ some name) :
    a.redeclaredBy b = false := by
  cases ha : a.name with
  | none => rw [redeclaredBy_of_nameless ha]
  | some name => simpa [redeclaredBy_of_name ha, hasName] using h name ha

/-! ### The recursion behind the fold -/

theorem mergeInto_cons (a b : Attribute) (merged : List Attribute) :
    mergeInto keepFirst (a :: merged) b =
      if a.redeclaredBy b then combine keepFirst a b :: merged
      else a :: mergeInto keepFirst merged b := by
  have hshares : a.redeclaredBy b = b.name.any a.hasName := by
    cases ha : a.name <;> cases hb : b.name <;>
      simp [redeclaredBy, hasName, ha, hb, eq_comm]
  rw [hshares, mergeInto, mergeInto]
  cases b.name with
  | none => rfl
  | some name =>
      by_cases ha : a.hasName name = true
      · simp [ha, Tag.modifyFirst]
      · by_cases hrest : merged.any (·.hasName name) = true
        · simp [ha, hrest, Tag.modifyFirst]
        · simp [ha, hrest]

/-- What is merged into a list goes into its first attribute or into those
behind it. -/
theorem foldl_mergeInto_cons (a : Attribute) (merged later : List Attribute) :
    later.foldl (mergeInto keepFirst) (a :: merged) =
      (later.filter a.redeclaredBy).foldl (combine keepFirst) a ::
        (later.filter (!a.redeclaredBy ·)).foldl (mergeInto keepFirst)
          merged := by
  -- What is merged into the first attribute leaves it its name, so it takes the
  -- same ones later on.
  induction later generalizing a merged with
  | nil => rfl
  | cons b later ih =>
      rw [List.foldl_cons, mergeInto_cons]
      by_cases hb : a.redeclaredBy b = true
      · rw [if_pos hb, ih, redeclaredBy_combine, List.filter_cons_of_pos hb,
          List.filter_cons_of_neg (by simp [hb]), List.foldl_cons]
      · rw [if_neg hb, ih, List.filter_cons_of_neg hb,
          List.filter_cons_of_pos (by simp [hb]), List.foldl_cons]

theorem merge_cons (a : Attribute) (later : List Attribute) :
    merge keepFirst (a :: later) =
      (later.filter a.redeclaredBy).foldl (combine keepFirst) a ::
        merge keepFirst (later.filter (!a.redeclaredBy ·)) := by
  have hfirst : mergeInto keepFirst [] a = [a] := by
    rw [mergeInto]
    cases a.name <;> rfl
  rw [merge, List.foldl_cons, hfirst, foldl_mergeInto_cons]
  rfl

/-- Whatever holds of no attributes, and of an attribute with others behind it
as soon as it holds of those that do not have its name, holds of all lists. -/
@[elab_as_elim]
theorem merge_induction {motive : List Attribute → Prop} (nil : motive [])
    (cons : ∀ a later, motive (later.filter (!a.redeclaredBy ·)) →
      motive (a :: later)) (declared : List Attribute) : motive declared := by
  cases declared with
  | nil => exact nil
  | cons a later => exact cons a later (merge_induction nil cons _)
termination_by declared.length
decreasing_by
  have := List.length_filter_le (fun b => !a.redeclaredBy b) later
  simp only [List.length_cons]
  omega

/-! ### Names and places -/

theorem name_foldl_combine (a : Attribute) (later : List Attribute) :
    (later.foldl (combine keepFirst) a).name = a.name := by
  induction later generalizing a with
  | nil => rfl
  | cons b later ih => rw [List.foldl_cons, ih, name_combine]

theorem filterMap_name_merge (declared : List Attribute) :
    (merge keepFirst declared).filterMap (·.name) =
      (declared.filterMap (·.name)).eraseDups := by
  induction declared using merge_induction with
  | nil => rfl
  | cons a later ih =>
      rw [merge_cons]
      cases ha : a.name with
      | none =>
          rw [List.filterMap_cons_none (by rw [name_foldl_combine, ha]), ih,
            List.filterMap_cons_none ha, redeclaredBy_of_nameless ha]
          simp
      | some name =>
          have hothers : (later.filter (!a.redeclaredBy ·)).filterMap (·.name) =
              (later.filterMap (·.name)).filter
                (fun other => !other == name) := by
            rw [redeclaredBy_of_name ha, List.filterMap_filter,
              List.filter_filterMap]
            apply List.filterMap_congr
            intro b _
            cases hb : b.name <;> simp [hasName, hb, Option.filter]
          rw [List.filterMap_cons_some (by rw [name_foldl_combine, ha]), ih,
            hothers, List.filterMap_cons_some ha, List.eraseDups_cons]

theorem nodup_eraseDups (names : List String) : names.eraseDups.Nodup := by
  cases names with
  | nil => exact List.nodup_nil
  | cons name names =>
      rw [List.eraseDups_cons, List.nodup_cons]
      constructor
      · simp
      · exact nodup_eraseDups (names.filter fun other => !other == name)
termination_by names.length
decreasing_by
  have := List.length_filter_le (fun other => !other == name) names
  simp only [List.length_cons]
  omega

/-- The attributes that are not of a name, or not of any, are the same where
those of another name are left out. -/
theorem filter_others {a : Attribute} {p : Attribute → Bool}
    (h : ∀ b, p b = true → a.redeclaredBy b = false) (later : List Attribute) :
    (later.filter (!a.redeclaredBy ·)).filter p = later.filter p := by
  rw [List.filter_filter]
  apply List.filter_congr
  intro b _
  cases hb : p b with
  | false => rfl
  | true => rw [h b hb, Bool.not_false, Bool.and_true]

theorem filter_nameless_merge (declared : List Attribute) :
    (merge keepFirst declared).filter (·.name.isNone) =
      declared.filter (·.name.isNone) := by
  induction declared using merge_induction with
  | nil => rfl
  | cons a later ih =>
      have hothers : ∀ b : Attribute, b.name.isNone = true →
          a.redeclaredBy b = false := by
        intro b hb
        refine redeclaredBy_eq_false fun name _ hname => ?_
        rw [hname] at hb
        cases hb
      rw [merge_cons, List.filter_cons, List.filter_cons, name_foldl_combine,
        ih, filter_others hothers]
      cases ha : a.name with
      | none => simp [redeclaredBy_of_nameless ha]
      | some name => simp

/-- The declarations of a name come to one attribute, whatever else is
declared. -/
theorem declarations_merge (keepFirst : Bool) (name : String)
    (declared : List Attribute) :
    declarations name (merge keepFirst declared) =
      match declarations name declared with
      | [] => []
      | a :: later => [later.foldl (combine keepFirst) a] := by
  induction declared using merge_induction with
  | nil => rfl
  | cons a later ih =>
      have hmerged : ((later.filter a.redeclaredBy).foldl (combine keepFirst)
          a).hasName name =
          a.hasName name := by
        rw [hasName, name_foldl_combine, hasName]
      rw [declarations] at ih ⊢
      rw [merge_cons, List.filter_cons, hmerged, ih, declarations, declarations,
        List.filter_cons]
      by_cases ha : a.hasName name = true
      · rw [if_pos ha, if_pos ha, redeclaredBy_of_name (hasName_iff.1 ha)]
        simp
      · have hothers : ∀ b : Attribute, b.hasName name = true →
            a.redeclaredBy b = false := by
          intro b hb
          refine redeclaredBy_eq_false fun other hother hsame => ?_
          have hname : name = other :=
            Option.some.inj ((hasName_iff.1 hb).symm.trans hsame)
          exact ha (hasName_iff.2 (hname ▸ hother))
        rw [if_neg ha, if_neg ha, filter_others hothers]

/-- Attributes with names of their own stay as they are. -/
theorem merge_eq_self {declared : List Attribute}
    (h : (declared.filterMap (·.name)).Nodup) :
    merge keepFirst declared = declared := by
  induction declared with
  | nil => rfl
  | cons a later ih =>
      have hfresh : ∀ b ∈ later, a.redeclaredBy b = false := by
        intro b hb
        refine redeclaredBy_eq_false fun name hname hsame => ?_
        rw [List.filterMap_cons_some hname, List.nodup_cons] at h
        exact h.1 (List.mem_filterMap.2 ⟨b, hb, hsame⟩)
      have hnone : later.filter a.redeclaredBy = [] :=
        List.filter_eq_nil_iff.2 fun b hb => by simp [hfresh b hb]
      have hall : later.filter (!a.redeclaredBy ·) = later :=
        List.filter_eq_self.2 fun b hb => by simp [hfresh b hb]
      have hlater : (later.filterMap (·.name)).Nodup :=
        ((List.sublist_cons_self a later).filterMap _).nodup h
      rw [merge_cons, hnone, hall, ih hlater]
      rfl

/-! ### What a name comes to -/

/-- The declaration that decides the value of a name. -/
def deciding? (keepFirst : Bool) (declared : List Attribute) :
    Option Attribute :=
  if keepFirst then declared.head? else declared.getLast?

/-- An attribute has the value and the kind of the declaration that decides, and
the marks of all. -/
structure IsDecidedBy (keepFirst : Bool) (declared : List Attribute)
    (a : Attribute) : Prop where
  value : (deciding? keepFirst declared).map (·.value) = some a.value
  kind : (deciding? keepFirst declared).map (·.kind) = some a.kind
  implied : a.implied = declared.any (·.implied)
  boolean : a.boolean = declared.any (·.boolean)
  multiple : a.multiple = declared.any (·.multiple)

/-- Two declarations in front decide as what they come to. -/
theorem IsDecidedBy.of_combine {a b d : Attribute}
    (ha : a.hasName "class" = false) {later : List Attribute}
    (h : IsDecidedBy keepFirst (combine keepFirst a b :: later) d) :
    IsDecidedBy keepFirst (a :: b :: later) d := by
  have hdecides : ∀ {α : Type} (f : Attribute → α),
      f (combine keepFirst a b) = f (if keepFirst then a else b) →
      (deciding? keepFirst (a :: b :: later)).map f =
        (deciding? keepFirst (combine keepFirst a b :: later)).map f := by
    intro α f hf
    cases keepFirst with
    | true => simpa [deciding?] using hf.symm
    | false => cases later <;> simp_all [deciding?]
  have hcombine := combine.eq_1 keepFirst a b
  rw [if_neg (by simp [ha])] at hcombine
  constructor
  · rw [← h.value, hdecides (·.value)]
    rw [hcombine]
    cases keepFirst <;> rfl
  · rw [← h.kind, hdecides (·.kind)]
    rw [hcombine]
    cases keepFirst <;> rfl
  · rw [h.implied, hcombine]
    simp [Bool.or_assoc]
  · rw [h.boolean, hcombine]
    simp [Bool.or_assoc]
  · rw [h.multiple, hcombine]
    simp [Bool.or_assoc]

theorem isDecidedBy_foldl_combine {a : Attribute}
    (ha : a.hasName "class" = false) (later : List Attribute) :
    IsDecidedBy keepFirst (a :: later) (later.foldl (combine keepFirst) a) := by
  induction later generalizing a with
  | nil => constructor <;> cases keepFirst <;> simp [deciding?]
  | cons b later ih =>
      have hname : (combine keepFirst a b).hasName "class" = false := by
        rw [hasName, name_combine, ← hasName, ha]
      exact (ih hname).of_combine ha

/-! ### Classes -/

theorem words_joinValues (first second : Option (List Piece)) :
    Text.words (Piece.plainText ((joinValues first second).getD [])) =
      Text.words (Piece.plainText (first.getD [])) ++
        Text.words (Piece.plainText (second.getD [])) := by
  cases first with
  | none => rfl
  | some ps =>
      cases second with
      | none => exact (List.append_nil _).symm
      | some qs =>
          rw [joinValues]
          dsimp only [Option.getD_some]
          rw [Piece.plainText_foldl_pushPiece]
          by_cases hempty : ps = []
          · subst hempty
            rfl
          · rw [if_neg (by simpa using hempty), Piece.plainText_pushPiece]
            exact Text.words_append_of_blank (b := ' ') (by decide) _ _

theorem words_foldl_combine {a : Attribute} (ha : a.hasName "class" = true)
    (later : List Attribute) :
    Text.words (later.foldl (combine keepFirst) a).valueText =
      (a :: later).flatMap (fun d => Text.words d.valueText) := by
  induction later generalizing a with
  | nil => simp
  | cons b later ih =>
      have hname : (combine keepFirst a b).hasName "class" = true := by
        rw [hasName, name_combine, ← hasName, ha]
      have hwords : Text.words (combine keepFirst a b).valueText =
          Text.words a.valueText ++ Text.words b.valueText := by
        rw [combine, if_pos ha]
        exact words_joinValues a.value b.value
      rw [List.foldl_cons, ih hname, List.flatMap_cons, hwords,
        List.append_assoc]
      rfl

/-! ### The fold -/

/-- What merged attributes are, name by name and in their order. -/
structure IsKeyedFold (keepFirst : Bool) (declared merged : List Attribute) :
    Prop where
  /-- Names are in the order of their first declarations. -/
  names : merged.filterMap (·.name) = (declared.filterMap (·.name)).eraseDups
  /-- No two attributes have the same name. -/
  distinct : (merged.filterMap (·.name)).Nodup
  /-- Attributes without a name are left as they are. -/
  nameless : merged.filter (·.name.isNone) = declared.filter (·.name.isNone)
  decided : ∀ name ≠ "class", ∀ a ∈ declarations name merged,
    IsDecidedBy keepFirst (declarations name declared) a
  /-- The words of classes are put together. -/
  words : ∀ a ∈ declarations "class" merged,
    Text.words a.valueText =
      (declarations "class" declared).flatMap fun d => Text.words d.valueText

theorem exists_of_mem_declarations_merge {name : String}
    {declared : List Attribute} {a : Attribute}
    (ha : a ∈ declarations name (merge keepFirst declared)) :
    ∃ first later, declarations name declared = first :: later ∧
    first.hasName name = true ∧
      a = later.foldl (combine keepFirst) first := by
  rw [declarations_merge] at ha
  cases hdeclared : declarations name declared with
  | nil =>
      rw [hdeclared] at ha
      cases ha
  | cons first later =>
      rw [hdeclared, List.mem_singleton] at ha
      have hfirst : first ∈ declarations name declared := by
        rw [hdeclared]
        exact List.mem_cons_self
      exact ⟨first, later, rfl, (List.mem_filter.1 hfirst).2, ha⟩

theorem isKeyedFold_merge (keepFirst : Bool) (declared : List Attribute) :
    IsKeyedFold keepFirst declared (merge keepFirst declared) where
  names := filterMap_name_merge declared
  distinct := by
    rw [filterMap_name_merge]
    exact nodup_eraseDups _
  nameless := filter_nameless_merge declared
  decided := by
    intro name hname a ha
    obtain ⟨first, later, hdeclared, hfirst, rfl⟩ :=
      exists_of_mem_declarations_merge ha
    have hclass : first.hasName "class" = false := by
      rw [hasName, hasName_iff.1 hfirst, beq_eq_false_iff_ne]
      simpa using hname
    rw [hdeclared]
    exact isDecidedBy_foldl_combine hclass later
  words := by
    intro a ha
    obtain ⟨first, later, hdeclared, hfirst, rfl⟩ :=
      exists_of_mem_declarations_merge ha
    rw [hdeclared]
    exact words_foldl_combine hfirst later

/-- Merging is a fold over the declarations of each name, and merged attributes
have nothing more to merge, whether first or last declarations are kept. -/
theorem merge_keyed (keepFirst : Bool) (declared : List Attribute) :
    IsKeyedFold keepFirst declared (merge keepFirst declared) ∧
      merge keepFirst (merge keepFirst declared) =
        merge keepFirst declared := by
  have hfold := isKeyedFold_merge keepFirst declared
  exact ⟨hfold, merge_eq_self hfold.distinct⟩

end Attribute

end Scaffold

import Scaffold.Node.Refinement
import Scaffold.Proofs.Attribute.Merging
import Scaffold.Proofs.Snippet.Outcome
/-!
Attributes of a node that names a snippet beside those of the snippet.  They are
put behind the snippet's where later declarations win, and in front of it where
the first one is kept, so in both orders the node's own declaration decides.
Main statement: `own_attributes_prevail`.
-/
namespace Scaffold

namespace Attribute

/-- The only declaration of a name among attributes with names of their own. -/
theorem declarations_of_distinct {declared : List Attribute}
    (h : (declared.filterMap (·.name)).Nodup) {a : Attribute}
    (ha : a ∈ declared) {name : String} (hname : a.name = some name) :
    declarations name declared = [a] := by
  have hmem : a ∈ declarations name declared :=
    List.mem_filter.2 ⟨ha, hasName_iff.2 hname⟩
  -- They are merged as they stand, so what merging leaves of a name is there
  -- from the start.
  have hmerged := declarations_merge true name declared
  rw [merge_eq_self h] at hmerged
  cases hdeclared : declarations name declared with
  | nil =>
      rw [hdeclared] at hmem
      cases hmem
  | cons first later =>
      rw [hdeclared] at hmerged hmem
      have hlater : later = [] := (List.cons.inj hmerged).2
      rw [hlater, List.mem_singleton] at hmem
      rw [hlater, hmem]

/-- Where attributes stand in front if the first declaration is kept, and else
behind, a name that only one of them has is decided by that one. -/
theorem deciding?_beside {keepFirst : Bool} {mine : List Attribute}
    {name : String} {a : Attribute} (hmine : declarations name mine = [a])
    (theirs : List Attribute) :
    deciding? keepFirst
      (declarations name (if keepFirst then mine ++ theirs
        else theirs ++ mine)) = some a := by
  rw [declarations] at hmine ⊢
  cases keepFirst with
  | true => simp [deciding?, hmine]
  | false => simp [deciding?, hmine]

/-- A name with a declaration that decides comes to one attribute with its
value. -/
theorem exists_merged_of_deciding? {keepFirst : Bool}
    {declared : List Attribute} {name : String} (hclass : name ≠ "class")
    {a : Attribute}
    (h : deciding? keepFirst (declarations name declared) = some a) :
    ∃ kept, declarations name (merge keepFirst declared) = [kept] ∧
    kept.value = a.value ∧
      kept.kind = a.kind := by
  obtain ⟨first, later, hdeclared⟩ :
      ∃ first later, declarations name declared = first :: later := by
    cases hdeclared : declarations name declared with
    | nil => cases keepFirst <;> simp [deciding?, hdeclared] at h
    | cons first later => exact ⟨first, later, rfl⟩
  have hmerged := declarations_merge keepFirst name declared
  rw [hdeclared] at hmerged
  have hkept : later.foldl (combine keepFirst) first ∈
      declarations name (merge keepFirst declared) := by
    rw [hmerged]
    exact List.mem_cons_self
  have hdecided :=
    (isKeyedFold_merge keepFirst declared).decided name hclass _ hkept
  have hvalue := hdecided.value
  have hkind := hdecided.kind
  rw [h] at hvalue hkind
  exact ⟨_, hmerged, (Option.some.inj hvalue).symm,
    (Option.some.inj hkind).symm⟩

end Attribute

namespace Snippet

theorem attributeList_overlay (reverse : Bool) (own : Tag) (n : Node) :
    (overlay reverse own n).tag.attributeList =
      if reverse then own.attributeList ++ n.tag.attributeList
      else n.tag.attributeList ++ own.attributeList := by
  rw [overlay]
  cases hown : own.attributes <;> cases reverse <;>
    simp [Tag.attributeList, hown]

theorem attributeList_mergeAttributes (c : Config) (t : Tag) :
    (Node.mergeAttributes c t).attributeList =
      Attribute.merge c.options.reverseAttributes t.attributeList := by
  rw [Node.mergeAttributes]
  cases ht : t.attributes with
  | none => simp [Tag.attributeList, ht, Attribute.merge]
  | some declared => simp [Tag.attributeList, ht]

/-- Every node that a snippet puts in the place of a node with distinct
attributes has, once merged, each of these exactly once, with the value and the
kind that were written there; classes are put together instead. -/
theorem own_attributes_prevail {c : Config} {stack : Stack} {t : Tag}
    {nodes : List Node} (hresolved : (resolveTag c stack t).1 = .resolved nodes)
    (hdistinct : (t.attributeList.filterMap (·.name)).Nodup) :
    ∀ n ∈ nodes, ∀ own ∈ t.attributeList, ∀ name, own.name = some name →
    name ≠ "class" →
      ∃ kept,
        (Node.mergeAttributes c n.tag).attributeList.filter
          (·.hasName name) = [kept] ∧
        kept.value = own.value ∧ kept.kind = own.kind := by
  intro n hn own hown name hname hclass
  obtain ⟨m, rfl⟩ : ∃ m, n = overlay c.options.reverseAttributes t m := by
    have hanswer := answers_resolveTag c stack t
    rw [hresolved] at hanswer
    cases hanswer with
    | resolved _ _ _ _ =>
        obtain ⟨m, -, hm⟩ := List.mem_map.1 hn
        exact ⟨m, hm.symm⟩
  have hmine : Attribute.declarations name t.attributeList = [own] :=
    Attribute.declarations_of_distinct hdistinct hown hname
  rw [attributeList_mergeAttributes, attributeList_overlay]
  exact Attribute.exists_merged_of_deciding? hclass
    (Attribute.deciding?_beside hmine m.tag.attributeList)

namespace PrecedenceWitness

/-- A snippet of two elements, one of them a snippet with a type of its own,
where the first declaration of a name is kept. -/
def config : Config :=
  { snippets :=
      { entries := [("save", "btn[type=submit title=Save]+hint"),
        ("btn", "button[type=button]")] }
    options := { reverseAttributes := true } }

def declared (name text : String) : Attribute :=
  { name := some name, value := some [.text text] }

/-- A title without a value. -/
def untitled : Attribute := { name := some "title" }

/-- A use of the snippet with another type and without a title. -/
def save : Tag :=
  { name := some "save",
    attributes := some [declared "type" "reset", untitled] }

/-- The attributes of the button, those of its use in front of those of the
snippets. -/
def button : Tag :=
  { name := some "button"
    attributes := some [declared "type" "reset", untitled, declared "type"
      "submit", declared "title" "Save", declared "type" "button"] }

/-- The first element of the snippet. -/
def typed : Tag :=
  { name := some "btn"
    attributes := some [declared "type" "submit", declared "title" "Save"] }

theorem readBody_save : readBody config "btn[type=submit title=Save]+hint" =
    .ok ⟨[⟨typed, []⟩, ⟨{ name := some "hint" }, []⟩], 0⟩ := by
  rw [config]
  cbv

theorem readBody_btn :
    readBody config "button[type=button]" =
      .ok ⟨[⟨{ name := some "button",
               attributes := some [declared "type" "button"] }, []⟩], 0⟩ := by
  rw [config]
  cbv

theorem resolveTag_save :
    (resolveTag config [] save).1 = .resolved [⟨button, []⟩,
      ⟨{ name := some "hint",
         attributes := some [declared "type" "reset", untitled] }, []⟩] := by
  have hbtn : (resolveTag config ["save"] typed).1 =
      .resolved [⟨{ name := some "button"
                    attributes :=
                      some [declared "type" "submit", declared "title" "Save",
                      declared "type" "button"] }, []⟩] := by
    rw [resolveTag_of_read rfl rfl (by decide) readBody_btn,
      Machine.resolveNodes_cons, resolveTag_of_isOwn (by decide), resolveNodes]
    rfl
  rw [resolveTag_of_read rfl rfl (by decide) readBody_save,
    Machine.resolveNodes_cons, hbtn, Machine.resolveNodes_cons,
    resolveTag_of_isOwn (by decide), resolveNodes]
  rfl

/-- The button has no title, as its use says, though the snippet gives it
one. -/
theorem own_attributes_prevail_untitled :
    (resolveTag config [] save).1 =
        .resolved [⟨button, []⟩,
          ⟨{ name := some "hint",
             attributes := some [declared "type" "reset", untitled] }, []⟩] ∧
      (save.attributeList.filterMap (·.name)).Nodup ∧
      ∃ kept,
        (Node.mergeAttributes config button).attributeList.filter
          (·.hasName "title") = [kept] ∧
        kept.value = none ∧ kept.kind = .raw := by
  have hdistinct : (save.attributeList.filterMap (·.name)).Nodup := by decide
  exact ⟨resolveTag_save, hdistinct,
    own_attributes_prevail resolveTag_save hdistinct _ List.mem_cons_self
    untitled (by simp [save, Tag.attributeList]) "title" rfl (by decide)⟩

end PrecedenceWitness

end Snippet

end Scaffold

import Scaffold.Bem
import Scaffold.Proofs.Attribute.Merging
/-!
A class name that begins with one dash.  It stands for an element of the block
of the node above, but only its first part does, up to a character that is no
ASCII letter, digit or dash: what is behind that is dropped.  A name that does
not even begin with such a letter or digit is left as it is.  Main statements:
`shorthandClass_eq_iff`, `find?_expand`.
-/
namespace Scaffold

/-- The class names that the declarations of a tag have together. -/
def Tag.classNames (t : Tag) : List String :=
  (Attribute.declarations "class" t.attributeList).flatMap fun a =>
    Text.words a.valueText

namespace Bem

/-- The name of a block: ASCII letters and digits, with a letter in front. -/
structure IsBlockName (b : String) : Prop where
  letter : b.toList.head?.any Char.isAlpha = true
  plain : ∀ c ∈ b.toList, c.isAlphanum = true

/-- The name of an element behind a dash, which has no further marks. -/
structure IsElementName (e : String) : Prop where
  nonempty : e ≠ ""
  dashless : e.toList.head? ≠ some '-'
  unmodified : '_' ∉ e.toList

instance (b : String) : Decidable (IsBlockName b) :=
  decidable_of_iff (b.toList.head?.any Char.isAlpha = true ∧
    b.toList.all Char.isAlphanum = true)
    ⟨fun h => ⟨h.1, List.all_eq_true.1 h.2⟩, fun h =>
      ⟨h.letter, List.all_eq_true.2 h.plain⟩⟩

instance (e : String) : Decidable (IsElementName e) :=
  decidable_of_iff (e ≠ "" ∧ e.toList.head? ≠ some '-' ∧ '_' ∉ e.toList)
    ⟨fun h => ⟨h.1, h.2.1, h.2.2⟩, fun h =>
      ⟨h.nonempty, h.dashless, h.unmodified⟩⟩

/-- A character that the name of an element goes on with. -/
def isElementChar (c : Char) : Bool := isPartChar c || c == '-'

/-- What a dash and an element come to below a block. -/
def shorthandClass (options : BemOptions) (b e : String) : String :=
  if e.toList.head?.any isPartChar then
    b ++ options.element ++ String.ofList (e.toList.takeWhile isElementChar)
  else "-" ++ e

variable {b e : String}

theorem isPartChar_of_isAlphanum {c : Char} (h : c.isAlphanum = true) :
    isPartChar c = true := by
  rw [Char.isAlphanum, Bool.or_eq_true] at h
  rw [isPartChar, Lorem.isFoldedLetter]
  rcases h with hletter | hdigit
  · simp [hletter]
  · simp [hdigit]

theorem isPartChar_dash : isPartChar '-' = false := by decide

theorem isPartChar_underscore : isPartChar '_' = false := by decide

theorem IsBlockName.exists_cons (hb : IsBlockName b) :
    ∃ c cs, b.toList = c :: cs ∧ c.isAlpha = true := by
  have hletter := hb.letter
  cases hcs : b.toList with
  | nil => simp [hcs] at hletter
  | cons c cs => exact ⟨c, cs, rfl, by simpa [hcs] using hletter⟩

theorem IsBlockName.ne_of_mem (hb : IsBlockName b) {c mark : Char}
    (hc : c ∈ b.toList) (hmark : isPartChar mark = false) : c ≠ mark := by
  rintro rfl
  rw [isPartChar_of_isAlphanum (hb.plain c hc)] at hmark
  cases hmark

theorem IsElementName.exists_cons (he : IsElementName e) :
    ∃ c cs, e.toList = c :: cs ∧ c ≠ '-' ∧ '_' ∉ c :: cs := by
  have hdash := he.dashless
  have hmark := he.unmodified
  cases hcs : e.toList with
  | nil => exact absurd (String.toList_eq_nil_iff.1 hcs) he.nonempty
  | cons c cs =>
      rw [hcs] at hdash hmark
      exact ⟨c, cs, rfl, by simpa using hdash, hmark⟩

/-- The whole name of an element is kept exactly if all its characters are ASCII
letters, digits or dashes, or fold to such letters. -/
theorem shorthandClass_eq_iff (options : BemOptions) (hb : IsBlockName b)
    (he : IsElementName e) :
    shorthandClass options b e = b ++ options.element ++ e ↔
      ∀ c ∈ e.toList, isElementChar c = true := by
  obtain ⟨d, ds, hblock, hletter⟩ := hb.exists_cons
  obtain ⟨c, cs, helement, hdash, -⟩ := he.exists_cons
  rw [shorthandClass]
  by_cases hc : isPartChar c = true
  · rw [if_pos (by simpa [helement] using hc)]
    constructor
    · intro h
      have htake : e.toList.takeWhile isElementChar = e.toList := by
        simpa using congrArg String.toList h
      exact List.takeWhile_eq_self_iff.1 htake
    · intro h
      rw [List.takeWhile_eq_self_iff.2 h, String.ofList_toList]
  · rw [if_neg (by simpa [helement] using hc)]
    constructor
    · intro h
      -- the block does not begin with a dash
      have hfirst : ("-" ++ e).toList.head? =
          (b ++ options.element ++ e).toList.head? := by
        rw [h]
      have hd : '-' = d := by simpa [hblock] using hfirst
      exact absurd hd.symm (hb.ne_of_mem (by simp [hblock]) isPartChar_dash)
    · intro h
      have hfirst := h c (by simp [helement])
      simp [isElementChar, hc, hdash] at hfirst

/-! ### Reading marks -/

theorem element?_of_head? {cs : List Char} (h : cs.head? ≠ some '-') :
    element? cs = none := by
  cases cs with
  | nil => rfl
  | cons c cs =>
      have hc : c ≠ '-' := by simpa using h
      simp [element?, marked?, hc]

theorem modifier?_of_head? {cs : List Char} (h : cs.head? ≠ some '_') :
    modifier? cs = none := by
  cases cs with
  | nil => rfl
  | cons c cs =>
      have hc : c ≠ '_' := by simpa using h
      simp [modifier?, marked?, hc]

theorem element?_shorthand {c : Char} (hc : c ≠ '-') (cs : List Char) :
    element? ('-' :: c :: cs) =
      if isPartChar c then
        some ⟨1, (c :: cs).takeWhile isElementChar,
          (c :: cs).dropWhile isElementChar⟩
      else none := by
  have hmarks : ('-' :: c :: cs).takeWhile (· == '-') = ['-'] := by simp [hc]
  rw [element?, marked?, hmarks]
  rfl

/-! ### Blocks and shorthands as classes -/

theorem unique_singleton {name : String} (h : name ≠ "") :
    unique [name] = [name] := by
  simp [unique, h]

theorem IsBlockName.ne_empty (hb : IsBlockName b) : b ≠ "" := by
  obtain ⟨c, cs, hcs, -⟩ := hb.exists_cons
  rintro rfl
  cases hcs

theorem splitModifier_block (hb : IsBlockName b) : splitModifier b = [b] := by
  have hall : b.toList.takeWhile (· != '_') = b.toList :=
    List.takeWhile_eq_self_iff.2 fun c hc => by
      simpa using hb.ne_of_mem hc isPartChar_underscore
  simp [splitModifier, hall]

theorem splitModifier_shorthand (e : String) :
    splitModifier ("-" ++ e) = ["-" ++ e] := by
  simp [splitModifier]

theorem IsBlockName.head?_ne (hb : IsBlockName b) {mark : Char}
    (hmark : isPartChar mark = false) : b.toList.head? ≠ some mark := by
  intro hhead
  exact hb.ne_of_mem (List.mem_of_head? hhead) hmark rfl

theorem isElementOrModifier_block (hb : IsBlockName b) :
    isElementOrModifier b = false := by
  rw [isElementOrModifier, element?_of_head? (hb.head?_ne isPartChar_dash),
    modifier?_of_head? (hb.head?_ne isPartChar_underscore)]
  rfl

theorem isDashedBlock_block (hb : IsBlockName b) : isDashedBlock b = false := by
  rw [isDashedBlock]
  split
  · next c cs hcs =>
      exact absurd rfl (hb.ne_of_mem (c := '-') (by simp [hcs]) isPartChar_dash)
  · rfl

theorem isBlock_block (hb : IsBlockName b) : isBlock b = true := by
  obtain ⟨c, cs, hcs, hletter⟩ := hb.exists_cons
  rw [isBlock, hcs]
  simp [Lorem.isFoldedLetter, hletter]

/-- A block in front of all others is the block that class names name, unless
one of them begins with a single letter and a dash. -/
theorem blockOf_cons (hb : IsBlockName b) {names : List String}
    (hnames : ∀ name ∈ names, isDashedBlock name = false) :
    blockOf (b :: names) = some b := by
  have hdashed : ((b :: names).takeWhile (!isElementOrModifier ·)).find?
      isDashedBlock = none := by
    rw [List.find?_eq_none]
    intro name hname
    rcases List.mem_cons.1 ((List.takeWhile_sublist _).subset hname)
      with rfl | hname
    · simp [isDashedBlock_block hb]
    · simp [hnames name hname]
  rw [blockOf, hdashed]
  simp [isElementOrModifier_block hb, isBlock_block hb]

theorem blockOf_block (hb : IsBlockName b) : blockOf [b] = some b :=
  blockOf_cons hb (by simp)

theorem blockOf_shorthand (e : String) : blockOf ["-" ++ e] = none := by
  have hdashed : isDashedBlock ("-" ++ e) = false := by
    rw [isDashedBlock]
    split
    · next c cs heq =>
        have hc : '-' = c := by simpa using congrArg List.head? heq
        subst hc
        rfl
    · rfl
  have hblock : isBlock ("-" ++ e) = false := by
    have hcs : ("-" ++ e).toList = '-' :: e.toList := by simp
    rw [isBlock, hcs]
    rfl
  have hnone : ∀ names : List String, (∀ name ∈ names, name = "-" ++ e) →
      names.find? isDashedBlock = none ∧ names.find? isBlock = none := by
    intro names hnames
    constructor <;> rw [List.find?_eq_none] <;> intro name hname <;>
      rw [hnames name hname]
    · simp [hdashed]
    · simp [hblock]
  have hcandidates :=
    hnone (["-" ++ e].takeWhile (!isElementOrModifier ·)) fun name hname => by
    simpa using (List.takeWhile_sublist _).subset hname
  rw [blockOf, hcandidates.1, hcandidates.2]
  rfl

variable {options : BemOptions} {tag : Tag}

theorem classesOf_block (hb : IsBlockName b) (hwritten : written tag = [b]) :
    classesOf tag = ⟨[b], some b⟩ := by
  have hnames : unique ((written tag).flatMap splitModifier) = [b] := by
    rw [hwritten, List.flatMap_singleton, splitModifier_block hb,
      unique_singleton hb.ne_empty]
  rw [classesOf, hnames, blockOf_block hb]

theorem classesOf_shorthand (hwritten : written tag = ["-" ++ e]) :
    classesOf tag = ⟨["-" ++ e], none⟩ := by
  have hne : "-" ++ e ≠ "" := by simp
  have hnames : unique ((written tag).flatMap splitModifier) = ["-" ++ e] := by
    rw [hwritten, List.flatMap_singleton, splitModifier_shorthand,
      unique_singleton hne]
  rw [classesOf, hnames, blockOf_shorthand]

theorem expandClass_shorthand (he : IsElementName e) {own parent : Classes}
    (hown : own.block = none) (hparent : parent.block = some b)
    (above : List Classes) :
    expandClass options (own :: parent :: above) ("-" ++ e) =
      [shorthandClass options b e] := by
  obtain ⟨c, cs, hcs, hdash, hmark⟩ := he.exists_cons
  have hname : ("-" ++ e).toList = '-' :: c :: cs := by simp [hcs]
  have hblock : blockAt (own :: parent :: above) 1 = b := by
    simp [blockAt, hown, hparent]
  by_cases hc : isPartChar c = true
  · have hrest : modifier? ((c :: cs).dropWhile isElementChar) = none := by
      apply modifier?_of_head?
      intro hhead
      exact hmark ((List.dropWhile_sublist _).subset (List.mem_of_head? hhead))
    have hshort : ((c :: cs).dropWhile isElementChar) ≠ '-' :: c :: cs := by
      intro heq
      have hlength :=
        (List.dropWhile_sublist (l := c :: cs) isElementChar).length_le
      rw [heq] at hlength
      simp at hlength
    rw [expandClass, hname, element?_shorthand hdash, if_pos hc]
    simp only [hrest, hblock, if_neg hshort]
    rw [shorthandClass, hcs, if_pos (by simpa using hc)]
  · have hrest : modifier? ('-' :: c :: cs) = none :=
      modifier?_of_head? (by simp)
    rw [expandClass, hname, element?_shorthand hdash, if_neg hc]
    simp only [hrest, if_true]
    rw [shorthandClass, hcs, if_neg (by simpa using hc)]
    rfl

/-! ### Class attributes -/

theorem find?_modify (tag : Tag) (name : String) {f : Attribute → Attribute}
    (hf : ∀ a, (f a).name = a.name) :
    (tag.modify name f).find? name = (tag.find? name).map f := by
  have hlist : ∀ attributes : List Attribute,
      (Tag.modifyFirst name f attributes).find? (·.hasName name) =
        (attributes.find? (·.hasName name)).map f := by
    intro attributes
    induction attributes with
    | nil => rfl
    | cons a rest ih =>
        have hkeeps : (f a).hasName name = a.hasName name := by
          rw [Attribute.hasName, hf, Attribute.hasName]
        rw [Tag.modifyFirst]
        by_cases ha : a.hasName name = true
        · rw [if_pos ha]
          simp [hkeeps, ha]
        · rw [if_neg ha]
          simpa [ha] using ih
  rw [Tag.find?, Tag.find?, Tag.attributeList, Tag.attributeList, Tag.modify]
  cases tag.attributes with
  | none => rfl
  | some attributes => exact hlist attributes

theorem find?_withClasses (tag : Tag) {names : List String} (hne : names ≠ []) :
    (withClasses tag names).find? "class" =
      (tag.find? "class").map
        ({ · with value := some [.text (Text.join " " names)] }) := by
  rw [withClasses, if_neg (by simpa using hne)]
  exact find?_modify tag "class" fun _ => rfl

theorem exists_find?_of_written (h : written tag ≠ []) :
    ∃ a, tag.find? "class" = some a := by
  rw [written] at h
  split at h
  · next a ha => exact ⟨a, ha⟩
  · exact absurd rfl h

theorem shorthandClass_ne_empty (hb : IsBlockName b) :
    shorthandClass options b e ≠ "" := by
  rw [shorthandClass]
  split
  · simp [hb.ne_empty]
  · simp

/-- Below a block, the class attribute of a tag with a shorthand alone has what
the shorthand comes to. -/
theorem find?_expand (hb : IsBlockName b) (he : IsElementName e)
    (hwritten : written tag = ["-" ++ e]) {parent : Classes}
    (hparent : parent.block = some b) (above : List Classes) :
    ∃ a, (expand options (parent :: above) tag).1.find? "class" = some a ∧
      a.value = some [.text (shorthandClass options b e)] := by
  have hown := classesOf_shorthand hwritten
  have hexpanded : unique ((classesOf tag).names.flatMap
      (expandClass options (classesOf tag :: parent :: above))) =
        [shorthandClass options b e] := by
    rw [hown, List.flatMap_singleton, expandClass_shorthand he rfl hparent,
      unique_singleton (shorthandClass_ne_empty hb)]
  have hsome : written tag ≠ [] := by simp [hwritten]
  obtain ⟨a, ha⟩ := exists_find?_of_written hsome
  refine ⟨{ a with
    value := some [.text (shorthandClass options b e)] }, ?_, rfl⟩
  rw [expand]
  dsimp only
  rw [hexpanded, find?_withClasses _ (List.cons_ne_nil _ _), hown,
    find?_withClasses tag (List.cons_ne_nil _ _), ha]
  rfl

/-! ### Merged declarations -/

theorem find?_class (t : Tag) :
    t.find? "class" = (Attribute.declarations "class" t.attributeList).head? :=
  (List.head?_filter ..).symm

/-- What classes a tag has depends on its declarations of classes only. -/
theorem written_congr {t u : Tag}
    (h : Attribute.declarations "class" u.attributeList =
      Attribute.declarations "class" t.attributeList) :
    written u = written t := by
  rw [written, written, find?_class, find?_class, h]

/-- Merged declarations have all class names. -/
theorem written_of_merged {keepFirst : Bool} {t u : Tag}
    (h : u.attributeList = Attribute.merge keepFirst t.attributeList) :
    written u = t.classNames := by
  rw [written, find?_class, h, Attribute.declarations_merge, Tag.classNames]
  cases hdeclared : Attribute.declarations "class" t.attributeList with
  | nil => rfl
  | cons a later =>
      have ha : a.hasName "class" = true := by
        have hmem : a ∈ Attribute.declarations "class" t.attributeList := by
          simp [hdeclared]
        exact (List.mem_filter.1 hmem).2
      exact Attribute.words_foldl_combine ha later

end Bem

end Scaffold

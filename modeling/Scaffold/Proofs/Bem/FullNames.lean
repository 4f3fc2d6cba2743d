import Scaffold.Proofs.Bem.Shorthand
import Scaffold.Proofs.Text.Words
/-!
Class names that are written out in full: a block, an element of it, or a
modifier of either.  Such a name is cut in front of its first underscore, and
what is behind the block is put together anew as a mark: one underscore is a
modifier of the first block of the tag, and the two in front of an element make
it a modifier of the block one node further up.  So no name with an element
comes back, and a modifier does if its block is the one that the marks look up.
Main statements: `written_expand`, `text_mem_expanded`.
-/
namespace Scaffold.Bem

/-! ### Names without repetitions -/

theorem mem_unique {x : String} {names : List String} :
    x ∈ unique names ↔ x ∈ names ∧ x ≠ "" := by
  have hfold : ∀ seen : List String,
      x ∈ names.foldl (fun seen name => if name = "" ∨ name ∈ seen then seen
        else seen ++ [name])
          seen ↔ x ∈ seen ∨ x ∈ names ∧ x ≠ "" := by
    induction names with
    | nil => simp
    | cons name names ih =>
        intro seen
        rw [List.foldl_cons, ih, List.mem_cons]
        split
        · next hskip =>
            rcases hskip with rfl | hseen
            · grind
            · grind
        · next hkeep =>
            push Not at hkeep
            rw [List.mem_append, List.mem_singleton]
            grind
  rw [unique, hfold []]
  simp

theorem head?_unique_cons {name : String} (hne : name ≠ "")
    (names : List String) : (unique (name :: names)).head? = some name := by
  have hfold : ∀ seen : List String, seen.head? = some name →
      (names.foldl (fun seen name =>
        if name = "" ∨ name ∈ seen then seen else seen ++ [name])
        seen).head? = some name := by
    induction names with
    | nil => exact fun seen hseen => hseen
    | cons other names ih =>
        intro seen hseen
        rw [List.foldl_cons]
        apply ih
        split
        · exact hseen
        · rw [List.head?_append, hseen]
          rfl
  rw [unique, List.foldl_cons]
  apply hfold
  simp [hne]

/-! ### Full names -/

/-- A class name written out: a block, perhaps an element of it, and perhaps a
modifier. -/
structure FullName where
  block : String
  element : Option String := none
  modifier : Option String := none
  deriving DecidableEq, Repr

/-- What stands behind the block of a name: underscores, and a word. -/
structure Mark where
  depth : Nat
  word : String
  deriving DecidableEq, Repr

def Mark.text (mark : Mark) : String :=
  String.ofList (List.replicate mark.depth '_') ++ mark.word

theorem Mark.exists_cons {mark : Mark} (hdepth : 0 < mark.depth) :
    ∃ cs, mark.text.toList = '_' :: cs := by
  obtain ⟨k, hk⟩ : ∃ k, mark.depth = k + 1 := ⟨mark.depth - 1, by omega⟩
  refine ⟨List.replicate k '_' ++ mark.word.toList, ?_⟩
  rw [text, hk, String.toList_append, String.toList_ofList, List.replicate_succ,
    List.cons_append]

namespace FullName

/-- All parts of a name are ASCII letters and digits, with a letter in front. -/
structure IsProper (f : FullName) : Prop where
  block : IsBlockName f.block
  element : ∀ e ∈ f.element, IsBlockName e
  modifier : ∀ m ∈ f.modifier, IsBlockName m

instance (f : FullName) : Decidable f.IsProper :=
  decidable_of_iff (IsBlockName f.block ∧ (∀ e ∈ f.element, IsBlockName e) ∧
      ∀ m ∈ f.modifier, IsBlockName m)
    ⟨fun h => ⟨h.1, h.2.1, h.2.2⟩, fun h => ⟨h.block, h.element, h.modifier⟩⟩

/-- The name with the usual separators. -/
def text (f : FullName) : String :=
  f.block ++ f.element.elim "" ("__" ++ ·) ++ f.modifier.elim "" ("_" ++ ·)

/-- What stands behind the block. -/
def mark? (f : FullName) : Option Mark :=
  match f.element, f.modifier with
  | none, none => none
  | none, some m => some ⟨1, m⟩
  | some e, none => some ⟨2, e⟩
  | some e, some m => some ⟨2, e ++ "_" ++ m⟩

theorem text_eq (f : FullName) :
    f.text = f.block ++ f.mark?.elim "" Mark.text := by
  obtain ⟨b, e, m⟩ := f
  apply String.toList_injective
  cases e <;> cases m <;> simp [text, mark?, Mark.text]

end FullName

def isNameChar (c : Char) : Bool := c.isAlphanum || c == '_'

theorem isPartChar_or_of_isNameChar {c : Char} (h : isNameChar c = true) :
    (isPartChar c || c == '-' || c == '_') = true := by
  rw [isNameChar, Bool.or_eq_true] at h
  rcases h with halnum | hmark
  · simp [isPartChar_of_isAlphanum halnum]
  · simp [hmark]

theorem toNat_of_isNameChar {c : Char} (h : isNameChar c = true) :
    48 ≤ c.toNat ∧ c.toNat ≤ 122 := by
  simp only [isNameChar, Char.isAlphanum, Char.isAlpha, Char.isUpper,
    Char.isLower, Char.isDigit, Bool.or_eq_true, Bool.and_eq_true,
    decide_eq_true_eq, beq_iff_eq, ge_iff_le, UInt32.le_iff_toNat_le] at h
  rcases h with ((h | h) | h) | rfl
  · change 65 ≤ c.toNat ∧ c.toNat ≤ 90 at h
    omega
  · change 97 ≤ c.toNat ∧ c.toNat ≤ 122 at h
    omega
  · change 48 ≤ c.toNat ∧ c.toNat ≤ 57 at h
    omega
  · decide

theorem isBlank_of_isNameChar {c : Char} (h : isNameChar c = true) :
    Text.isBlank c = false := by
  obtain ⟨hlow, hhigh⟩ := toNat_of_isNameChar h
  rw [Text.isBlank, Text.inRanges, List.any_eq_false]
  intro r hr
  have hoff : ∀ r ∈ Text.blankRanges, r.2 < 48 ∨ 122 < r.1 := by decide
  have hout := hoff r hr
  simp only [Bool.and_eq_true, decide_eq_true_eq]
  omega
/-- A word behind underscores: characters of full names, with a letter in
front. -/
structure IsMarkWord (w : String) : Prop where
  letter : w.toList.head?.any Char.isAlpha = true
  plain : ∀ c ∈ w.toList, isNameChar c = true

theorem IsBlockName.isMarkWord {b : String} (hb : IsBlockName b) :
    IsMarkWord b :=
  ⟨hb.letter, fun c hc => by simp [isNameChar, hb.plain c hc]⟩

theorem IsMarkWord.exists_cons {w : String} (hw : IsMarkWord w) :
    ∃ c cs, w.toList = c :: cs ∧ c.isAlpha = true ∧
    ∀ d ∈ c :: cs, isNameChar d = true := by
  have hletter := hw.letter
  have hplain := hw.plain
  cases hcs : w.toList with
  | nil => simp [hcs] at hletter
  | cons c cs =>
      rw [hcs] at hletter hplain
      exact ⟨c, cs, rfl, by simpa using hletter, hplain⟩

namespace FullName

variable {f : FullName}

theorem IsProper.mark (hf : f.IsProper) {mark : Mark} (h : mark ∈ f.mark?) :
    0 < mark.depth ∧ IsMarkWord mark.word := by
  obtain ⟨b, e, m⟩ := f
  cases e with
  | none =>
      cases m with
      | none => cases h
      | some m =>
          obtain rfl := Option.some.inj h
          exact ⟨Nat.one_pos, (hf.modifier m rfl).isMarkWord⟩
  | some e =>
      have he := hf.element e rfl
      cases m with
      | none =>
          obtain rfl := Option.some.inj h
          exact ⟨Nat.two_pos, he.isMarkWord⟩
      | some m =>
          obtain rfl := Option.some.inj h
          have hm := hf.modifier m rfl
          obtain ⟨c, cs, hcs, hc⟩ := he.exists_cons
          refine ⟨Nat.two_pos, by simpa [hcs] using hc, ?_⟩
          intro d hd
          simp only [String.toList_append, List.mem_append] at hd
          rcases hd with (hd | hd) | hd
          · exact he.isMarkWord.plain d hd
          · obtain rfl : d = '_' := by simpa using hd
            rfl
          · exact hm.isMarkWord.plain d hd

end FullName

/-! ### Cutting and reading -/

section Reading

variable {b : String} {f : FullName} {fs : List FullName}

theorem IsBlockName.not_mem_underscore (hb : IsBlockName b) : '_' ∉ b.toList :=
  fun hmem => hb.ne_of_mem hmem isPartChar_underscore rfl

theorem takeWhile_append_underscore {cs : List Char} (h : '_' ∉ cs)
    (rest : List Char) : (cs ++ '_' :: rest).takeWhile (· != '_') = cs := by
  have hcs : ∀ c ∈ cs, (c != '_') = true := fun c hc => by
    simpa using ne_of_mem_of_not_mem hc h
  rw [List.takeWhile_append_of_pos hcs, List.takeWhile_cons_of_neg (by decide),
    List.append_nil]

/-- A full name is cut behind its block. -/
theorem splitModifier_text (hf : f.IsProper) :
    splitModifier f.text = f.block :: f.mark?.toList.map Mark.text := by
  rw [f.text_eq]
  cases hmark : f.mark? with
  | none => simpa using splitModifier_block hf.block
  | some mark =>
      obtain ⟨marks, hmarks⟩ := Mark.exists_cons (hf.mark hmark).1
      have hhead : (f.block ++ mark.text).toList.takeWhile (· != '_') =
          f.block.toList := by
        rw [String.toList_append, hmarks]
        exact takeWhile_append_underscore hf.block.not_mem_underscore marks
      have hne : mark.text ≠ "" := by
        intro hempty
        rw [hempty] at hmarks
        cases hmarks
      have hcut : (f.block.toList.isEmpty || f.block.toList.head? == some '-' ||
          f.block.toList.length = (f.block ++ mark.text).toList.length) =
            false := by
        simp [hf.block.ne_empty, hf.block.head?_ne isPartChar_dash, hne]
      rw [Option.elim_some, splitModifier, hhead, if_neg (by rw [hcut]; decide),
        String.toList_append, List.drop_left, String.ofList_toList,
        String.ofList_toList]
      rfl

/-- The parts that the classes of a tag are cut into. -/
def parts (fs : List FullName) : List String :=
  fs.flatMap fun f => f.block :: f.mark?.toList.map Mark.text

theorem flatMap_splitModifier (proper : ∀ f ∈ fs, f.IsProper) :
    (fs.map FullName.text).flatMap splitModifier = parts fs := by
  rw [List.flatMap_map, parts]
  exact List.flatMap_congr fun f hf => splitModifier_text (proper f hf)

theorem mem_parts {x : String} :
    x ∈ parts fs ↔ ∃ f ∈ fs, x = f.block ∨ ∃ mark ∈ f.mark?, x = mark.text := by
  simp [parts, eq_comm]

theorem isDashedBlock_mark {mark : Mark} (hdepth : 0 < mark.depth) :
    isDashedBlock mark.text = false := by
  obtain ⟨marks, hmarks⟩ := Mark.exists_cons hdepth
  rw [isDashedBlock, hmarks]
  split
  · next c cs hcs =>
      obtain ⟨rfl, -⟩ := List.cons.inj hcs
      rfl
  · rfl

theorem ne_empty_of_mem_parts (proper : ∀ f ∈ fs, f.IsProper) {x : String}
    (h : x ∈ parts fs) : x ≠ "" := by
  obtain ⟨f, hf, rfl | ⟨mark, hmark, rfl⟩⟩ := mem_parts.1 h
  · exact (proper f hf).block.ne_empty
  · intro hempty
    obtain ⟨c, cs, hcs, -⟩ := ((proper f hf).mark hmark).2.exists_cons
    have hword := congrArg String.toList hempty
    simp [Mark.text, hcs] at hword

/-- Tags with full names have the block of the first of them. -/
theorem block_classesOf {tag : Tag} (proper : ∀ f ∈ fs, f.IsProper)
    (hwritten : written tag = fs.map FullName.text) :
    (classesOf tag).block = fs.head?.map FullName.block := by
  rw [classesOf, hwritten, flatMap_splitModifier proper]
  cases fs with
  | nil => rfl
  | cons f fs =>
      have hf := (proper f List.mem_cons_self).block
      obtain ⟨names, hnames⟩ := List.head?_eq_some_iff.1 (head?_unique_cons
        hf.ne_empty (f.mark?.toList.map Mark.text ++ parts fs))
      have hparts : unique (parts (f :: fs)) = f.block :: names := hnames
      rw [hparts]
      apply blockOf_cons hf
      intro name hname
      have hmem : name ∈ unique (parts (f :: fs)) := by
        rw [hparts]
        exact List.mem_cons_of_mem _ hname
      obtain ⟨g, hg, rfl | ⟨mark, hmark, rfl⟩⟩ :=
        mem_parts.1 (mem_unique.1 hmem).1
      · exact isDashedBlock_block (proper g hg).block
      · exact isDashedBlock_mark ((proper g hg).mark hmark).1

end Reading

/-! ### Putting together -/

section Expanding

variable {options : BemOptions} {path : List Classes} {b : String}

theorem expandClass_block (hb : IsBlockName b) :
    expandClass options path b = [b] := by
  rw [expandClass, element?_of_head? (hb.head?_ne isPartChar_dash)]
  simp [modifier?_of_head? (hb.head?_ne isPartChar_underscore)]

theorem modifier?_mark {mark : Mark} (hdepth : 0 < mark.depth)
    (hword : IsMarkWord mark.word) :
    modifier? mark.text.toList = some ⟨mark.depth, mark.word.toList, []⟩ := by
  obtain ⟨k, hk⟩ : ∃ k, mark.depth = k + 1 := ⟨mark.depth - 1, by omega⟩
  obtain ⟨c, cs, hcs, hletter, hplain⟩ := hword.exists_cons
  have hpart : isPartChar c = true :=
    isPartChar_of_isAlphanum (by simp [Char.isAlphanum, hletter])
  have hc : c ≠ '_' := by
    rintro rfl
    cases hletter
  have hall : ∀ d ∈ c :: cs, (isPartChar d || d == '-' || d == '_') = true :=
    fun d hd => isPartChar_or_of_isNameChar (hplain d hd)
  have hmarks : (List.replicate (k + 1) '_' ++ c :: cs).takeWhile (· == '_') =
      List.replicate (k + 1) '_' := by
    rw [List.takeWhile_append_of_pos (by simp),
      List.takeWhile_cons_of_neg (by simpa using hc), List.append_nil]
  rw [modifier?, marked?, Mark.text, String.toList_append, String.toList_ofList,
    hcs, hk, hmarks, List.drop_left]
  rw [List.replicate_succ]
  dsimp only
  rw [if_pos hpart, List.takeWhile_eq_self_iff.2 hall,
    List.dropWhile_eq_nil_iff.2 hall]
  simp

/-- A mark comes to the block that its underscores look up, and that with the
word behind it. -/
theorem expandClass_mark {mark : Mark} (hdepth : 0 < mark.depth)
    (hword : IsMarkWord mark.word) :
    expandClass options path mark.text =
      [blockAt path mark.depth, blockAt path mark.depth ++ options.modifier ++
        mark.word] := by
  have hdash : mark.text.toList.head? ≠ some '-' := by
    obtain ⟨marks, hmarks⟩ := Mark.exists_cons hdepth
    simp [hmarks]
  rw [expandClass, element?_of_head? hdash]
  simp only [modifier?_mark hdepth hword, String.ofList_toList]
  rfl

/-- A tag with a class attribute has the classes that it gets. -/
theorem written_withClasses {tag : Tag} {names : List String} (hne : names ≠ [])
    {a : Attribute} (ha : tag.find? "class" = some a)
    (hwords : ∀ name ∈ names, Text.words name = [name]) :
    written (withClasses tag names) = names := by
  have hsingle : names.flatMap Text.words = names := by
    rw [List.flatMap_congr hwords, List.flatMap_singleton']
  rw [written, find?_withClasses tag hne, ha]
  simp [Attribute.valueText, Piece.plainText, Piece.plain,
    Text.words_join, hsingle]

end Expanding

/-! ### What a tag has in the end -/

section Keeping

variable {options : BemOptions} {above : List Classes} {tag : Tag}
    {fs : List FullName}

def HasProperBlocks (path : List Classes) : Prop :=
  ∀ p ∈ path, ∀ b ∈ p.block, IsBlockName b

theorem HasProperBlocks.blockAt {path : List Classes}
    (hpath : HasProperBlocks path) (depth : Nat) :
    ∀ c ∈ (blockAt path depth).toList, c.isAlphanum = true := by
  rw [Bem.blockAt]
  cases hfound :
    (path.drop (min (depth - 1) (path.length - 1))).findSome? (·.block) with
  | none => simp
  | some b =>
      obtain ⟨p, hp, hb⟩ := List.exists_of_findSome?_eq_some hfound
      exact (hpath p (List.mem_of_mem_drop hp) b hb).plain

theorem blockAt_one {own : Classes} {b : String} (hown : own.block = some b) :
    blockAt (own :: above) 1 = b := by
  simp [blockAt, hown]

/-- Two levels up is the next block further up, or the own one where there is
nothing above. -/
theorem blockAt_two_eq_iff {own : Classes} {b : String}
    (hown : own.block = some b) {other : String} (hne : other ≠ "") :
    blockAt (own :: above) 2 = other ↔
      above = [] ∧ b = other ∨ above.findSome? (·.block) = some other := by
  cases above with
  | nil => simp [blockAt, hown]
  | cons p above =>
      have hblock : blockAt (own :: p :: above) 2 =
          ((p :: above).findSome? (·.block)).getD "" := by
        simp [blockAt]
      rw [hblock]
      cases (p :: above).findSome? (·.block) with
      | none => simpa using hne.symm
      | some found => simp

def expanded (options : BemOptions) (above : List Classes) (tag : Tag) :
    List String :=
  unique ((classesOf tag).names.flatMap
    (expandClass options (classesOf tag :: above)))

theorem hasProperBlocks_classesOf (proper : ∀ f ∈ fs, f.IsProper)
    (hwritten : written tag = fs.map FullName.text)
    (habove : HasProperBlocks above) :
    HasProperBlocks (classesOf tag :: above) := by
  rintro p (_ | ⟨_, hp⟩) b hb
  · rw [block_classesOf proper hwritten] at hb
    obtain ⟨f, hf, rfl⟩ := Option.map_eq_some_iff.1 hb
    exact (proper f (List.mem_of_head? hf)).block
  · exact habove p hp b hb

theorem mem_expanded (proper : ∀ f ∈ fs, f.IsProper)
    (hwritten : written tag = fs.map FullName.text) {x : String} :
    x ∈ expanded options above tag ↔
      x ≠ "" ∧ ∃ f ∈ fs, x = f.block ∨ ∃ mark ∈ f.mark?,
        x = blockAt (classesOf tag :: above) mark.depth ∨
          x = blockAt (classesOf tag :: above) mark.depth ++ options.modifier ++
            mark.word := by
  have hnames : ∀ y, y ∈ (classesOf tag).names ↔ y ∈ parts fs := by
    intro y
    rw [classesOf, hwritten, flatMap_splitModifier proper, mem_unique]
    exact and_iff_left_of_imp (ne_empty_of_mem_parts proper)
  rw [expanded, mem_unique, and_comm, List.mem_flatMap]
  refine and_congr_right fun _ => ?_
  simp only [hnames, mem_parts]
  constructor
  · rintro ⟨_, ⟨f, hf, rfl | ⟨mark, hmark, rfl⟩⟩, hx⟩
    · rw [expandClass_block (proper f hf).block, List.mem_singleton] at hx
      exact ⟨f, hf, .inl hx⟩
    · obtain ⟨hdepth, hword⟩ := (proper f hf).mark hmark
      rw [expandClass_mark hdepth hword] at hx
      exact ⟨f, hf, .inr ⟨mark, hmark, by simpa using hx⟩⟩
  · rintro ⟨f, hf, rfl | ⟨mark, hmark, hx⟩⟩
    · refine ⟨f.block, ⟨f, hf, .inl rfl⟩, ?_⟩
      rw [expandClass_block (proper f hf).block, List.mem_singleton]
    · obtain ⟨hdepth, hword⟩ := (proper f hf).mark hmark
      refine ⟨mark.text, ⟨f, hf, .inr ⟨mark, hmark, rfl⟩⟩, ?_⟩
      rw [expandClass_mark hdepth hword]
      simpa using hx

theorem words_of_forall {s : String} (hne : s ≠ "")
    (hs : ∀ c ∈ s.toList, isNameChar c = true) : Text.words s = [s] := by
  have hread := Text.wordsFrom_append_of_forall
    (fun c hc => isBlank_of_isNameChar (hs c hc)) [] []
  rw [List.append_nil, List.append_nil] at hread
  rw [Text.words, hread]
  simp [Text.wordsFrom, hne]

theorem words_of_mem_expanded (hmodifier : options.modifier = "_")
    (proper : ∀ f ∈ fs, f.IsProper)
    (hwritten : written tag = fs.map FullName.text)
    (habove : HasProperBlocks above) {x : String}
    (hx : x ∈ expanded options above tag) : Text.words x = [x] := by
  have hblocks := hasProperBlocks_classesOf proper hwritten habove
  obtain ⟨hne, f, hf, hcase⟩ := (mem_expanded proper hwritten).1 hx
  apply words_of_forall hne
  rcases hcase with rfl | ⟨mark, hmark, rfl | rfl⟩
  · exact fun c hc => by simp [isNameChar, (proper f hf).block.plain c hc]
  · exact fun c hc => by simp [isNameChar, hblocks.blockAt _ c hc]
  · intro c hc
    simp only [hmodifier, String.toList_append, List.mem_append] at hc
    rcases hc with (hc | hc) | hc
    · simp [isNameChar, hblocks.blockAt _ c hc]
    · obtain rfl : c = '_' := by simpa using hc
      rfl
    · exact ((proper f hf).mark hmark).2.plain c hc

/-- A tag with full names has what they come to as its classes, the block of the
first one in front. -/
theorem written_expand (hmodifier : options.modifier = "_")
    (proper : ∀ f ∈ fs, f.IsProper)
    (hwritten : written tag = fs.map FullName.text)
    (habove : HasProperBlocks above) :
    written (expand options above tag).1 = expanded options above tag ∧
      (expanded options above tag).head? = fs.head?.map FullName.block := by
  cases fs with
  | nil =>
      have hnone : written tag = [] := hwritten
      have hnames : (classesOf tag).names = [] := by
        rw [classesOf, hnone]
        rfl
      have hexpanded : expanded options above tag = [] := by
        rw [expanded, hnames]
        rfl
      have hkept : (expand options above tag).1 = tag := by
        change withClasses (withClasses tag (classesOf tag).names)
          (expanded options above tag) = tag
        rw [hexpanded, hnames]
        rfl
      rw [hkept, hnone, hexpanded]
      exact ⟨rfl, rfl⟩
  | cons f fs =>
      have hf := (proper f List.mem_cons_self).block
      have hsome : written tag ≠ [] := by simp [hwritten]
      obtain ⟨a, ha⟩ := exists_find?_of_written hsome
      obtain ⟨names, hnames⟩ : ∃ names, (classesOf tag).names =
          f.block :: names := by
        rw [classesOf, hwritten, flatMap_splitModifier proper]
        exact List.head?_eq_some_iff.1 (head?_unique_cons hf.ne_empty _)
      have hhead : (expanded options above tag).head? = some f.block := by
        rw [expanded, hnames, List.flatMap_cons, expandClass_block hf]
        exact head?_unique_cons hf.ne_empty _
      have hne : expanded options above tag ≠ [] := by
        intro hempty
        rw [hempty] at hhead
        cases hhead
      have hsplit : (withClasses tag (classesOf tag).names).find? "class" = _ :=
        find?_withClasses tag (by simp [hnames])
      rw [ha] at hsplit
      exact ⟨written_withClasses hne hsplit fun x hx =>
        words_of_mem_expanded hmodifier proper hwritten habove hx, hhead⟩

/-! ### Full names in the end -/

/-- Whether a full name among those of a tag stays, below a node or none with
some block: it has no element, and is a block itself, or a modifier of the block
that the tag names first, or one of the block further up that a name with this
for an element is taken for. -/
def Stays (outer : Option String) (fs : List FullName) (f : FullName) : Prop :=
  f.element = none ∧
    (f.modifier = none ∨ fs.head?.map FullName.block = some f.block ∨ outer =
      some f.block ∧ ∃ g ∈ fs, g.element = f.modifier ∧ g.modifier = none)

theorem text_of_mark?_eq_none {f : FullName} (h : f.mark? = none) :
    f.text = f.block := by
  rw [f.text_eq, h]
  simp

theorem stays_of_mark?_eq_none {outer : Option String} {f : FullName}
    (h : f.mark? = none) : Stays outer fs f := by
  obtain ⟨b, e, m⟩ := f
  cases e <;> cases m <;> first | exact ⟨rfl, .inl rfl⟩ | cases h

/-- A text of letters and digits is no name with a mark. -/
theorem mark?_eq_none_of_text {f : FullName} (hf : f.IsProper)
    (h : ∀ c ∈ f.text.toList, c.isAlphanum = true) : f.mark? = none := by
  cases hmark : f.mark? with
  | none => rfl
  | some mark =>
      obtain ⟨cs, hcs⟩ := Mark.exists_cons (hf.mark hmark).1
      have hbad := h '_' (by rw [f.text_eq, hmark]; simp [hcs])
      cases hbad

/-- Underscores behind a block can be told from a single one in front of a
word. -/
theorem eq_of_text_eq {f : FullName} (hf : f.IsProper) {mark : Mark}
    (hmark : f.mark? = some mark) {b w : String}
    (hb : ∀ c ∈ b.toList, c.isAlphanum = true) (hw : IsMarkWord w)
    (h : f.text = b ++ "_" ++ w) : f.block = b ∧ mark = ⟨1, w⟩ := by
  obtain ⟨depth, word⟩ := mark
  obtain ⟨hdepth, -⟩ := hf.mark hmark
  obtain ⟨c, cs, hcs, hletter, -⟩ := hw.exists_cons
  obtain ⟨k, rfl⟩ : ∃ k, depth = k + 1 :=
    ⟨depth - 1, by dsimp only at hdepth; omega⟩
  have hblock : '_' ∉ b.toList := fun hmem => by cases hb '_' hmem
  have htext : f.block.toList ++ '_' :: (List.replicate k '_' ++ word.toList) =
      b.toList ++ '_' :: w.toList := by
    have hchars := congrArg String.toList h
    rw [f.text_eq, hmark] at hchars
    simpa [Mark.text, List.replicate_succ] using hchars
  have heq : f.block.toList = b.toList := by
    have hhead := congrArg (List.takeWhile (· != '_')) htext
    rwa [takeWhile_append_underscore hf.block.not_mem_underscore,
      takeWhile_append_underscore hblock] at hhead
  rw [heq] at htext
  have hrest := List.tail_eq_of_cons_eq (List.append_cancel_left htext)
  refine ⟨String.toList_injective heq, ?_⟩
  cases k with
  | zero => rw [String.toList_injective hrest]
  | succ k =>
      -- the word would begin with an underscore
      rw [hcs, List.replicate_succ, List.cons_append] at hrest
      obtain ⟨rfl, -⟩ := List.cons.inj hrest
      cases hletter

theorem FullName.IsProper.text_ne_empty {f : FullName} (hf : f.IsProper) :
    f.text ≠ "" := by
  rw [f.text_eq]
  simp [hf.block.ne_empty]

/-- Behind a block there is a modifier alone, an element alone, or both. -/
theorem mark?_cases {f : FullName} {mark : Mark} (h : f.mark? = some mark) :
    (mark.depth = 1 ∧ f.element = none ∧ f.modifier = some mark.word) ∨
      (mark.depth = 2 ∧ f.element = some mark.word ∧ f.modifier = none) ∨
      (mark.depth = 2 ∧ '_' ∈ mark.word.toList) := by
  obtain ⟨b, e, m⟩ := f
  cases e with
  | none =>
      cases m with
      | none => cases h
      | some m =>
          obtain rfl := Option.some.inj h
          exact .inl ⟨rfl, rfl, rfl⟩
  | some e =>
      cases m with
      | none =>
          obtain rfl := Option.some.inj h
          exact .inr (.inl ⟨rfl, rfl, rfl⟩)
      | some m =>
          obtain rfl := Option.some.inj h
          exact .inr (.inr ⟨rfl, by simp⟩)

section

variable {f first : FullName}

/-- What a name comes to that is a modifier in the end was a modifier of the
tag's own block, or an element of the next one. -/
theorem stays_of_text_eq (hown : (classesOf tag).block = some first.block)
    (hfirst : fs.head? = some first)
    (hblocks : HasProperBlocks (classesOf tag :: above)) (hf : f.IsProper)
    {mark : Mark} (hmark : f.mark? = some mark) {g : FullName} (hg : g ∈ fs)
    {other : Mark} (hother : g.mark? = some other)
    (hword : IsMarkWord other.word)
    (htext : f.text = blockAt (classesOf tag :: above) other.depth ++ "_" ++
      other.word) : Stays (above.findSome? (·.block)) fs f := by
  obtain ⟨hblock, rfl⟩ := eq_of_text_eq hf hmark (hblocks.blockAt _) hword htext
  have hhead : first.block = f.block → fs.head?.map FullName.block =
      some f.block := fun heq => by
    rw [hfirst, ← heq]
    rfl
  obtain ⟨helement, hm⟩ : f.element = none ∧ f.modifier = some other.word := by
    obtain ⟨-, h⟩ | ⟨h, -⟩ | ⟨h, -⟩ := mark?_cases hmark
    · exact h
    · cases h
    · cases h
  refine ⟨helement, .inr ?_⟩
  obtain ⟨hdepth, -⟩ | ⟨hdepth, hg'⟩ | ⟨-, hmem⟩ := mark?_cases hother
  · rw [hdepth, blockAt_one hown] at hblock
    exact .inl (hhead hblock.symm)
  · rw [hdepth] at hblock
    rcases (blockAt_two_eq_iff hown hf.block.ne_empty).1 hblock.symm
      with ⟨-, heq⟩ | houter
    · exact .inl (hhead heq)
    · exact .inr ⟨houter, g, hg, by rw [hm]; exact hg'⟩
  · exact absurd hmem (hf.modifier _ hm).not_mem_underscore

/-- Which of the full names of a tag stay depends on the block of the first one
and on the next block further up. -/
theorem text_mem_expanded (hmodifier : options.modifier = "_")
    (proper : ∀ f ∈ fs, f.IsProper)
    (hwritten : written tag = fs.map FullName.text)
    (habove : HasProperBlocks above) (hf : f ∈ fs) :
    f.text ∈ expanded options above tag ↔
    Stays (above.findSome? (·.block)) fs f := by
  have hblocks := hasProperBlocks_classesOf proper hwritten habove
  obtain ⟨first, hfirst⟩ : ∃ first, fs.head? = some first :=
    Option.isSome_iff_exists.1 (List.isSome_head?.2 (List.ne_nil_of_mem hf))
  have hown : (classesOf tag).block = some first.block := by
    rw [block_classesOf proper hwritten, hfirst]
    rfl
  rw [mem_expanded proper hwritten, and_iff_right (proper f hf).text_ne_empty,
    hmodifier]
  constructor
  · rintro ⟨g, hg, hcase⟩
    cases hmark : f.mark? with
    | none => exact stays_of_mark?_eq_none hmark
    | some mark =>
        have hmarked : ¬ ∀ c ∈ f.text.toList, c.isAlphanum = true :=
          fun hplain => by
          rw [mark?_eq_none_of_text (proper f hf) hplain] at hmark
          cases hmark
        rcases hcase with htext | ⟨other, hother, htext | htext⟩
        · exact absurd (htext ▸ (proper g hg).block.plain) hmarked
        · exact absurd (htext ▸ hblocks.blockAt other.depth) hmarked
        · exact stays_of_text_eq hown hfirst hblocks (proper f hf) hmark hg
            hother ((proper g hg).mark hother).2 htext
  · rintro ⟨helement, hcase⟩
    have hne := (proper f hf).block.ne_empty
    obtain ⟨b, e, m⟩ := f
    obtain rfl : e = none := helement
    cases m with
    | none => exact ⟨_, hf, .inl (text_of_mark?_eq_none rfl)⟩
    | some m =>
        have htext : FullName.text ⟨b, none, some m⟩ = b ++ "_" ++ m := by
          simp [FullName.text, String.append_assoc]
        rw [htext]
        rcases hcase with hnone | hhead | ⟨houter, g, hg, hg'⟩
        · cases hnone
        · rw [hfirst] at hhead
          refine ⟨_, hf, .inr ⟨⟨1, m⟩, rfl, .inr ?_⟩⟩
          rw [blockAt_one hown, Option.some.inj hhead]
        · obtain ⟨gb, ge, gm⟩ := g
          obtain ⟨rfl, rfl⟩ := hg'
          refine ⟨_, hg, .inr ⟨⟨2, m⟩, rfl, .inr ?_⟩⟩
          rw [(blockAt_two_eq_iff hown hne).2 (.inr houter)]

end

end Keeping

end Scaffold.Bem

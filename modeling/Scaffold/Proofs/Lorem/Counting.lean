import Scaffold.Proofs.Lorem.Sampling
import Scaffold.Proofs.Text.Words
/-!
How many words placeholder text has.  Words are drawn by the entries of a
vocabulary, and commas, marks and capitals add none, so a text has as many words
as it has entries, plus those that an entry of the opening has beyond one.  Main
statement: `wordCount_paragraphWithin`.
-/
namespace Scaffold.Lorem

open Scaffold.Random Scaffold.Text

/-! ### Entries -/

/-- The small letters that words begin with: Latin and Russian ones. -/
def isSmall (c : Char) : Bool :=
  Nat.ble 0x61 c.toNat && Nat.ble c.toNat 0x7A || Nat.ble 0x430 c.toNat &&
    Nat.ble c.toNat 0x44F

/-- Whether a text begins with a small letter and does not end with a blank. -/
def isEntry (w : String) : Bool := w.toList.head?.any isSmall && endsInWord w

/-- Whether a text begins with a small letter and has no blanks. -/
def isSingle (w : String) : Bool :=
  match w.toList with
  | [] => false
  | c :: cs => isSmall c && (c :: cs).all (!isBlank ·)

/-- Whether a character is no blank and does not become one, or nothing, in
upper case. -/
def staysInk (c : Char) : Bool :=
  !isBlank c && !(upperChar c).isEmpty && (upperChar c).all (!isBlank ·)

/-- What holds of every Latin and of every Russian letter holds of the small
letters. -/
theorem forall_of_isSmall {p : Char → Prop}
    (hlatin : ∀ k < 26, p (Char.ofNat (0x61 + k)))
    (hrussian : ∀ k < 32, p (Char.ofNat (0x430 + k))) {c : Char}
    (h : isSmall c = true) : p c := by
  simp only [isSmall, Bool.or_eq_true, Bool.and_eq_true, Nat.ble_eq] at h
  rcases h with h | h
  · have hc := hlatin (c.toNat - 0x61) (by omega)
    rwa [Nat.add_sub_cancel' h.1, Char.ofNat_toNat] at hc
  · have hc := hrussian (c.toNat - 0x430) (by omega)
    rwa [Nat.add_sub_cancel' h.1, Char.ofNat_toNat] at hc

theorem staysInk_of_isSmall {c : Char} (h : isSmall c = true) :
    staysInk c = true :=
  forall_of_isSmall (p := (staysInk · = true)) (by decide +kernel)
    (by decide +kernel) h

section Entries

variable {w : String}

theorem endsInWord_of_isEntry (h : isEntry w = true) : endsInWord w = true := by
  rw [isEntry, Bool.and_eq_true] at h
  exact h.2

theorem exists_small_of_isEntry (h : isEntry w = true) :
    ∃ c cs, w.toList = c :: cs ∧ isSmall c = true := by
  rw [isEntry, Bool.and_eq_true] at h
  cases hcs : w.toList with
  | nil => simp [hcs] at h
  | cons c cs => exact ⟨c, cs, rfl, by simpa [hcs] using h.1⟩

/-- The first character of an entry. -/
theorem exists_cons_of_isEntry (h : isEntry w = true) :
    ∃ c cs, w.toList = c :: cs ∧ isBlank c = false ∧ upperChar c ≠ [] ∧
      ∀ d ∈ upperChar c, isBlank d = false := by
  obtain ⟨c, cs, hcs, hsmall⟩ := exists_small_of_isEntry h
  have hink := staysInk_of_isSmall hsmall
  simp only [staysInk, Bool.and_eq_true, Bool.not_eq_true',
    List.isEmpty_eq_false_iff, List.all_eq_true] at hink
  exact ⟨c, cs, hcs, hink.1.1, hink.1.2, hink.2⟩

theorem one_le_wordCount (h : isEntry w = true) : 1 ≤ wordCount w := by
  obtain ⟨c, cs, hcs, hc, -⟩ := exists_cons_of_isEntry h
  have hwords := one_le_length_wordsFrom (List.cons_ne_nil c []) cs
  rw [wordCount, words, List.length_map, hcs, wordsFrom, if_neg (by simp [hc])]
  exact hwords

theorem isEntry_of_isSingle (h : isSingle w = true) : isEntry w = true := by
  rw [isSingle] at h
  split at h
  · cases h
  · next c cs hcs =>
      rw [Bool.and_eq_true] at h
      have hlast :=
        List.all_eq_true.1 h.2 _ (List.getLast_mem (List.cons_ne_nil c cs))
      rw [isEntry, endsInWord, hcs, List.getLast?_eq_some_getLast
        (List.cons_ne_nil c cs), Option.any_some, hlast, Bool.and_true]
      exact h.1

theorem wordCount_of_isSingle (h : isSingle w = true) : wordCount w = 1 := by
  rw [isSingle] at h
  split at h
  · cases h
  · next c cs hcs =>
      rw [Bool.and_eq_true] at h
      rw [wordCount, words, List.length_map, hcs]
      exact length_wordsFrom_of_forall (List.cons_ne_nil c cs)
        (by simpa using h.2) []

/-- An entry with marks behind it is one still. -/
theorem isEntry_append (h : isEntry w = true) {marks : String}
    (hmarks : endsInWord marks = true) : isEntry (w ++ marks) = true := by
  have hends := endsInWord_append hmarks w
  obtain ⟨c, cs, hcs, -⟩ := exists_cons_of_isEntry h
  rw [isEntry, Bool.and_eq_true] at h ⊢
  refine ⟨?_, hends⟩
  simpa [hcs] using h.1

theorem isEntry_withComma (h : isEntry w = true) :
    isEntry (withComma w) = true := by
  rw [withComma]
  split
  · exact h
  · exact isEntry_append h (by decide)

theorem wordCount_withComma (h : isEntry w = true) :
    wordCount (withComma w) = wordCount w := by
  rw [withComma]
  split
  · rfl
  · exact wordCount_append (endsInWord_of_isEntry h) (by decide)

/-- A capital makes no other word. -/
theorem wordCount_capitalize (h : isEntry w = true) :
    wordCount (capitalize w) = wordCount w := by
  obtain ⟨c, cs, hcs, hc, hne, hupper⟩ := exists_cons_of_isEntry h
  rw [wordCount, wordCount, words, words, List.length_map, List.length_map,
    capitalize, hcs]
  dsimp only
  rw [String.toList_ofList, wordsFrom_append_of_forall hupper, wordsFrom,
    if_neg (by simp [hc])]
  exact length_wordsFrom_congr (by simpa using hne) (List.cons_ne_nil c []) cs

theorem endsInWord_capitalize (h : isEntry w = true) :
    endsInWord (capitalize w) = true := by
  obtain ⟨c, cs, hcs, hc, hne, hupper⟩ := exists_cons_of_isEntry h
  have hends := endsInWord_of_isEntry h
  rw [endsInWord, hcs] at hends
  rw [endsInWord, capitalize, hcs]
  dsimp only
  rw [String.toList_ofList, List.getLast?_append]
  cases cs with
  | nil =>
      obtain ⟨d, hd⟩ :=
        Option.ne_none_iff_exists'.1 (mt List.getLast?_eq_none_iff.1 hne)
      simpa [hd] using hupper d (List.mem_of_getLast? hd)
  | cons d ds =>
      rw [List.getLast?_cons_cons] at hends
      simpa [List.getLast?_cons] using hends

end Entries

/-! ### Entries in a row -/

/-- The words that entries have beyond one for each. -/
def surplus (ws : List String) : Nat := (ws.map (wordCount · - 1)).sum

section Rows

variable {ws marked : List String}

theorem sum_wordCount (h : ∀ w ∈ ws, isEntry w = true) :
    (ws.map wordCount).sum = ws.length + surplus ws := by
  induction ws with
  | nil => rfl
  | cons w ws ih =>
      have hrest := ih fun u hu => h u (List.mem_cons_of_mem w hu)
      have hword := one_le_wordCount (h w List.mem_cons_self)
      rw [surplus] at hrest ⊢
      simp only [List.map_cons, List.sum_cons, List.length_cons]
      omega

theorem surplus_eq_zero (h : ∀ w ∈ ws, wordCount w = 1) : surplus ws = 0 := by
  rw [surplus, List.sum_eq_zero_iff_forall_eq_nat]
  intro n hn
  obtain ⟨w, hw, rfl⟩ := List.mem_map.1 hn
  rw [h w hw]

/-- A row has the words of its entries. -/
theorem wordCount_phrase (h : ∀ w ∈ ws, isEntry w = true) :
    wordCount (phrase ws) = (ws.map wordCount).sum := by
  cases ws with
  | nil => rfl
  | cons w ws =>
      rw [phrase, wordCount_join, List.map_cons, List.map_cons,
        wordCount_capitalize (h w List.mem_cons_self)]

theorem endsInWord_phrase (hne : ws ≠ []) (h : ∀ w ∈ ws, isEntry w = true) :
    endsInWord (phrase ws) = true := by
  cases ws with
  | nil => exact absurd rfl hne
  | cons w ws =>
      apply endsInWord_join (List.cons_ne_nil _ _)
      rintro u (_ | ⟨_, hu⟩)
      · exact endsInWord_capitalize (h w List.mem_cons_self)
      · exact endsInWord_of_isEntry (h u (List.mem_cons_of_mem w hu))

/-- Commas keep entries, and the number of their words. -/
theorem wordCounts_of_commaed (hmarked : List.Forall₂ Commaed ws marked)
    (h : ∀ w ∈ ws, isEntry w = true) :
    marked.map wordCount = ws.map wordCount ∧ ∀ w ∈ marked,
    isEntry w = true := by
  induction hmarked with
  | nil => simp
  | @cons w m ws ms hword hrest ih =>
      obtain ⟨hcounts, hentries⟩ :=
        ih fun u hu => h u (List.mem_cons_of_mem w hu)
      have hentry := h w List.mem_cons_self
      have hm : wordCount m = wordCount w ∧ isEntry m = true := by
        rcases hword with rfl | rfl
        · exact ⟨rfl, hentry⟩
        · exact ⟨wordCount_withComma hentry, isEntry_withComma hentry⟩
      constructor
      · rw [List.map_cons, List.map_cons, hcounts, hm.1]
      · rintro u (_ | ⟨_, hu⟩)
        · exact hm.2
        · exact hentries u hu

end Rows

/-! ### Vocabularies -/

/-- A vocabulary whose opening has entries, and whose words are single ones. -/
structure Vocabulary.IsSound (v : Vocabulary) : Prop where
  opens : v.opening ≠ []
  opening : ∀ w ∈ v.opening, isEntry w = true
  nonempty : v.words ≠ []
  single : ∀ w ∈ v.words, isSingle w = true

namespace Vocabulary

theorem isSound_latin : latin.IsSound where
  opens := List.cons_ne_nil _ _
  opening := by decide +kernel
  nonempty := List.cons_ne_nil _ _
  single := by decide +kernel

theorem isSound_russian : russian.IsSound where
  opens := List.cons_ne_nil _ _
  opening := by decide +kernel
  nonempty := List.cons_ne_nil _ _
  single := by decide +kernel

theorem isSound_spanish : spanish.IsSound where
  opens := List.cons_ne_nil _ _
  opening := by decide +kernel
  nonempty := List.cons_ne_nil _ _
  single := by decide +kernel

theorem isSound_ofSuffix (suffix : String) : (ofSuffix suffix).IsSound := by
  rw [ofSuffix]
  split
  · exact isSound_russian
  · split
    · exact isSound_spanish
    · exact isSound_latin

theorem surplus_latin (count : Nat) :
    surplus (latin.opening.take count) = 0 := by
  have hsingle : ∀ w ∈ latin.opening, wordCount w = 1 := by decide +kernel
  exact surplus_eq_zero fun w hw => hsingle w (List.mem_of_mem_take hw)

theorem surplus_spanish (count : Nat) :
    surplus (spanish.opening.take count) = 0 := by
  have hsingle : ∀ w ∈ spanish.opening, wordCount w = 1 := by decide +kernel
  exact surplus_eq_zero fun w hw => hsingle w (List.mem_of_mem_take hw)

/-- The fifth and the seventh entry are two words each. -/
theorem surplus_russian (count : Nat) : surplus (russian.opening.take count) =
    (if 5 ≤ count then 1 else 0) + (if 7 ≤ count then 1 else 0) := by
  have hfew : ∀ n < 10, surplus (russian.opening.take n) =
      (if 5 ≤ n then 1 else 0) + (if 7 ≤ n then 1 else 0) := by decide +kernel
  have hsurplus : surplus russian.opening = 2 := by decide +kernel
  by_cases hcount : count < 10
  · exact hfew count hcount
  · have hlength : russian.opening.length ≤ count := Nat.le_of_not_lt hcount
    rw [List.take_of_length_le hlength, hsurplus, if_pos (by omega),
      if_pos (by omega)]

end Vocabulary

/-! ### Sentences -/

section Sentences

variable {σ : Type} [Source σ] {tries : Nat} {s s' : σ} {v : Vocabulary}
    {text : String}

theorem isBlank_endings : ∀ m ∈ endings, m.toList.all (!isBlank ·) = true := by
  decide

/-- Whatever mark a sentence ends with, it has the words of its entries. -/
theorem wordCount_sentence {fullStop : Bool} {ws : List String} (hne : ws ≠ [])
    (hws : ∀ w ∈ ws, isEntry w = true)
    (h : sentence tries fullStop ws s = some (text, s')) :
    wordCount text = ws.length + surplus ws := by
  obtain ⟨marked, s₁, hmarks, mark, hmark, rfl⟩ := insertCommas_of_sentence h
  have hcommaed := commaed_of_insertCommas hmarks
  obtain ⟨hcounts, hentries⟩ := wordCounts_of_commaed hcommaed hws
  have hmarked : marked ≠ [] := by
    rintro rfl
    cases hcommaed
    exact hne rfl
  calc wordCount (phrase marked ++ mark)
      = wordCount (phrase marked) :=
        wordCount_append (endsInWord_phrase hmarked hentries)
          (isBlank_endings mark hmark)
    _ = (ws.map wordCount).sum := by rw [wordCount_phrase hentries, hcounts]
    _ = ws.length + surplus ws := sum_wordCount hws

/-- Drawn sentences have as many words as wanted together. -/
theorem wordCount_sentences (hv : v.IsSound) {count : Nat} {texts : List String}
    (h : sentences tries v.words count s = some (texts, s')) :
    (texts.map wordCount).sum = count := by
  induction count using Nat.strongRecOn generalizing s texts with
  | ind count ih =>
      rcases eq_nil_or_cons_of_sentences hv.nonempty h with ⟨hzero, rfl⟩ |
        ⟨size, picked, text, more, s₁, s₂, s₃, rfl, hleast, -, hsample, hne,
          hsentence, hmore⟩
      · exact hzero.symm
      · obtain ⟨hlength, hmem⟩ := length_of_sample hv.nonempty hsample
        have hsingle : ∀ w ∈ picked, isSingle w = true :=
          fun w hw => hv.single w (hmem w hw)
        have hfirst := wordCount_sentence hne
          (fun w hw => isEntry_of_isSingle (hsingle w hw)) hsentence
        rw [surplus_eq_zero fun w hw => wordCount_of_isSingle (hsingle w hw)]
          at hfirst
        have hpicked := List.length_pos_iff.2 hne
        have hrest := ih (count - picked.length) (by omega) hmore
        rw [List.map_cons, List.sum_cons, hrest, hfirst]
        omega

/-- Placeholder text has the words that are asked for, and those that entries of
the opening have beyond one. -/
theorem wordCount_paragraphWithin (hv : v.IsSound) {count : Nat}
    (hcount : 1 ≤ count) {opens : Bool}
    (h : paragraphWithin tries v count opens s = some (text, s')) :
    wordCount text = count + if opens then surplus (v.opening.take count)
      else 0 := by
  obtain ⟨first, rest, s₁, rfl, hfirst, hrest⟩ :=
    sentences_of_paragraphWithin hv.opens h
  rw [wordCount_join, List.map_append, List.sum_append,
    wordCount_sentences hv hrest]
  cases opens with
  | false =>
      cases hfirst
      exact Nat.zero_add count
  | true =>
      rw [opened, if_pos rfl] at hfirst ⊢
      obtain ⟨sentence, more, ⟨s₂, s₃, hsentence⟩, hmore, rfl⟩ :=
        List.forall₂_cons_left_iff.1 hfirst
      cases hmore
      have hne : v.opening.take count ≠ [] := by
        rw [Ne, List.take_eq_nil_iff]
        exact fun hor => hor.elim (by omega) hv.opens
      have hopening := wordCount_sentence hne
        (fun w hw => hv.opening w (List.mem_of_mem_take hw)) hsentence
      have hlength := List.length_take_le count v.opening
      rw [List.map_singleton, List.sum_singleton, hopening,
        List.flatten_singleton, if_pos rfl]
      omega

end Sentences

end Scaffold.Lorem

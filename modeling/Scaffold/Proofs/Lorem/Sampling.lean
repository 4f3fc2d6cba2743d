import Mathlib.Data.List.Forall2
import Scaffold.Lorem
import Scaffold.Proofs.Random.Drawing
/-!
What the draws for sentences come to.  A sample has words at different places of
the list, as many as asked for or as there are, commas are put behind words
without a change to them, and sentences follow one another until there are words
enough.  Main statements: `exists_places_of_sample`, `insertCommas_of_sentence`,
`eq_nil_or_cons_of_sentences`, `sentences_of_paragraphWithin`.
-/
namespace Scaffold.Lorem

open Scaffold.Random

variable {σ : Type} [Source σ] {tries : Nat} {s s' : σ}

/-! ### Samples -/

/-- Different places below a size, no more than wanted. -/
structure Places (size count : Nat) (places : List Nat) : Prop where
  distinct : places.Nodup
  below : ∀ i ∈ places, i < size
  atMost : places.length ≤ count

/-- A place that is not there yet is added. -/
theorem Places.add {size count i : Nat} {places : List Nat}
    (h : Places size count places) (hi : i < size)
    (hroom : places.length < count) :
    Places size count (if i ∈ places then places else places ++ [i]) := by
  by_cases hmem : i ∈ places
  · rwa [if_pos hmem]
  · rw [if_neg hmem]
    exact
      { distinct := by
          rw [List.nodup_append]
          refine ⟨h.distinct, by simp, ?_⟩
          rintro j hj k hk rfl
          exact hmem (List.mem_singleton.1 hk ▸ hj)
        below := fun j hj => by
          rcases List.mem_append.1 hj with hj | hj
          · exact h.below j hj
          · exact List.mem_singleton.1 hj ▸ hi
        atMost := by
          rw [List.length_append]
          exact hroom }

/-- However the draws come out, there are in the end as many different places as
wanted. -/
theorem places_of_pick {size count left : Nat} (hsize : 0 < size)
    {picked places : List Nat} (hpicked : Places size count picked)
    (h : pick tries size count picked left s = some (places, s')) :
    Places size count places ∧ places.length = count := by
  induction left generalizing picked s with
  | zero => cases h
  | succ left ih =>
      rw [pick] at h
      split at h
      · next hfull =>
          obtain ⟨rfl, -⟩ := Prod.mk.inj (Option.some.inj h)
          exact ⟨hpicked, Nat.le_antisymm hpicked.atMost hfull⟩
      · next hroom =>
          split at h
          · cases h
          · next i s₁ hi =>
              have hbelow := (between_bounds hsize hi).2
              exact ih (hpicked.add hbelow (Nat.lt_of_not_le hroom)) h

/-- A sample has the words at different places, as many as asked for or as there
are. -/
theorem exists_places_of_sample {words picked : List String} {count : Nat}
    (hwords : words ≠ []) (h : sample tries words count s = some (picked, s')) :
    ∃ places, Places words.length (min count words.length) places ∧
      places.length = min count words.length ∧
      picked = places.filterMap (words[·]?) := by
  rw [sample] at h
  split at h
  · next places s₁ hpick =>
      obtain ⟨rfl, -⟩ := Prod.mk.inj (Option.some.inj h)
      obtain ⟨hplaces, hlength⟩ := places_of_pick (List.length_pos_iff.2 hwords)
        ⟨List.nodup_nil, by simp, Nat.zero_le _⟩ hpick
      exact ⟨places, hplaces, hlength, rfl⟩
  · cases h

theorem length_of_sample {words picked : List String} {count : Nat}
    (hwords : words ≠ []) (h : sample tries words count s = some (picked, s')) :
    picked.length = min count words.length ∧ ∀ w ∈ picked, w ∈ words := by
  obtain ⟨places, hplaces, hlength, rfl⟩ := exists_places_of_sample hwords h
  constructor
  · rw [List.length_filterMap_eq_countP, ← hlength, List.countP_eq_length]
    intro i hi
    simpa using hplaces.below i hi
  · intro w hw
    obtain ⟨i, -, hi⟩ := List.mem_filterMap.1 hw
    exact List.mem_of_getElem? hi

/-! ### Commas -/

def Commaed (word marked : String) : Prop :=
  marked = word ∨ marked = withComma word

theorem withComma_withComma (w : String) :
    withComma (withComma w) = withComma w := by
  have hlast : (withComma w).toList.getLast? = some ',' := by
    rw [withComma]
    split
    · assumption
    · simp
  conv_lhs => rw [withComma, if_pos hlast]

theorem Commaed.withComma {word marked : String} (h : Commaed word marked) :
    Commaed word (withComma marked) := by
  rcases h with rfl | rfl
  · exact .inr rfl
  · exact .inr (withComma_withComma word)

theorem commaed_refl (words : List String) : List.Forall₂ Commaed words words :=
  List.forall₂_same.2 fun _ _ => .inl rfl

/-- One more comma. -/
theorem commaed_modify {words marked : List String}
    (h : List.Forall₂ Commaed words marked) (i : Nat) :
    List.Forall₂ Commaed words (marked.modify i withComma) := by
  induction h generalizing i with
  | nil => simp
  | cons hword hrest ih =>
      cases i with
      | zero => exact .cons hword.withComma hrest
      | succ i => exact .cons hword (ih i)

theorem commaed_of_commasFrom {n : Nat} {words marked marked' : List String}
    (hmarked : List.Forall₂ Commaed words marked)
    (h : commasFrom tries n marked s = some (marked', s')) :
    List.Forall₂ Commaed words marked' := by
  induction n generalizing marked s with
  | zero =>
      obtain ⟨rfl, -⟩ := Prod.mk.inj (Option.some.inj h)
      exact hmarked
  | succ n ih =>
      rw [commasFrom] at h
      split at h
      · cases h
      · next i s₁ hi => exact ih (commaed_modify hmarked i) h

/-- Wherever the commas fall, the words are still the same. -/
theorem commaed_of_insertCommas {words marked : List String}
    (h : insertCommas tries words s = some (marked, s')) :
    List.Forall₂ Commaed words marked := by
  rw [insertCommas] at h
  split at h
  · obtain ⟨rfl, -⟩ := Prod.mk.inj (Option.some.inj h)
    exact commaed_refl words
  · dsimp only at h
    split at h
    · cases h
    · next n s₁ hn => exact commaed_of_commasFrom (commaed_refl words) h

/-- Commas come behind any word but the last one. -/
theorem getLast?_of_commasFrom {n : Nat} {words marked : List String}
    (hwords : 2 ≤ words.length)
    (h : commasFrom tries n words s = some (marked, s')) :
    marked.getLast? = words.getLast? := by
  induction n generalizing words s with
  | zero =>
      obtain ⟨rfl, -⟩ := Prod.mk.inj (Option.some.inj h)
      rfl
  | succ n ih =>
      rw [commasFrom] at h
      split at h
      · cases h
      · next i s₁ hi =>
          obtain ⟨-, hi⟩ := between_bounds (by omega) hi
          have hlast : (words.modify i withComma)[words.length - 1]? =
              words[words.length - 1]? :=
            List.getElem?_modify_ne withComma words (Nat.ne_of_lt hi)
          rw [ih (by simpa using hwords) h, List.getLast?_eq_getElem?,
            List.getLast?_eq_getElem?, List.length_modify, hlast]

theorem getLast?_of_insertCommas {words marked : List String}
    (h : insertCommas tries words s = some (marked, s')) :
    marked.getLast? = words.getLast? := by
  rw [insertCommas] at h
  split at h
  · obtain ⟨rfl, -⟩ := Prod.mk.inj (Option.some.inj h)
    rfl
  · next hlength =>
      dsimp only at h
      split at h
      · cases h
      · exact getLast?_of_commasFrom (Nat.le_of_not_lt hlength) h

/-! ### Sentences -/

/-- A sentence has its words in a row, with commas put in, and one of the marks
at its end. -/
theorem insertCommas_of_sentence {fullStop : Bool} {words : List String}
    {text : String} (h : sentence tries fullStop words s = some (text, s')) :
    ∃ marked s₁, insertCommas tries words s = some (marked, s₁) ∧
      ∃ mark ∈ endings, text = phrase marked ++ mark := by
  rw [sentence] at h
  split at h
  · cases h
  · next marked s₁ hmarked =>
      refine ⟨marked, s₁, hmarked, ?_⟩
      split at h
      · obtain ⟨rfl, -⟩ := Prod.mk.inj (Option.some.inj h)
        exact ⟨".", by decide, rfl⟩
      · split at h
        · cases h
        · next i s₂ hi =>
            obtain ⟨rfl, -⟩ := Prod.mk.inj (Option.some.inj h)
            obtain ⟨-, hlt⟩ := between_bounds (by decide) hi
            exact ⟨endings[i], List.getElem_mem hlt,
              by rw [List.getElem?_eq_getElem hlt]; rfl⟩

/-- Sentences end when no words are left to write, and otherwise go on with a
sentence of a drawn size. -/
theorem eq_nil_or_cons_of_sentences {words texts : List String} {count : Nat}
    (hwords : words ≠ [])
    (h : sentences tries words count s = some (texts, s')) :
    (count = 0 ∧ texts = []) ∨
      ∃ size picked text more s₁ s₂ s₃, texts = text :: more ∧ 2 ≤ size ∧
      size < 30 ∧
        sample tries words (min size count) s₁ = some (picked, s₂) ∧
        picked ≠ [] ∧
        sentence tries false picked s₂ = some (text, s₃) ∧
        sentences tries words (count - picked.length) s₃ = some (more, s') := by
  rw [sentences] at h
  split at h
  · next hzero =>
      obtain ⟨rfl, -⟩ := Prod.mk.inj (Option.some.inj h)
      exact .inl ⟨hzero, rfl⟩
  · next hpos =>
      right
      split at h
      · cases h
      · next size s₁ hsize =>
          obtain ⟨hleast, hstop⟩ := between_bounds (by decide) hsize
          split at h
          · cases h
          · next s₂ hsample =>
              -- two words, or all that are left to write, are never none
              have hlength := (length_of_sample hwords hsample).1
              have hsome := List.length_pos_iff.2 hwords
              rw [List.length_nil] at hlength
              omega
          · next w ws s₂ hsample =>
              split at h
              · cases h
              · next text s₃ hsentence =>
                  split at h
                  · cases h
                  · next more s₄ hmore =>
                      obtain ⟨rfl, rfl⟩ := Prod.mk.inj (Option.some.inj h)
                      exact ⟨size, w :: ws, text, more, s₁, s₂, s₃, rfl, hleast,
                        hstop, hsample, List.cons_ne_nil w ws, hsentence, hmore⟩

/-- The entries of the sentence that a text opens with, if it does. -/
def opened (v : Vocabulary) (count : Nat) (opens : Bool) : List (List String) :=
  if opens then [v.opening.take count] else []

/-- A text is the sentence that it opens with, if it does, and drawn ones for
the rest of the entries. -/
theorem sentences_of_paragraphWithin {v : Vocabulary}
    (hopening : v.opening ≠ []) {count : Nat} {opens : Bool} {text : String}
    (h : paragraphWithin tries v count opens s = some (text, s')) :
    ∃ first rest s₁, text = Text.join " " (first ++ rest) ∧
      List.Forall₂ (fun entries text => ∃ s s₁ : σ,
        sentence tries true entries s = some (text, s₁))
        (opened v count opens) first ∧
      sentences tries v.words
        (count - (opened v count opens).flatten.length) s₁ =
        some (rest, s') := by
  rw [paragraphWithin] at h
  cases opens with
  | false =>
      rw [Bool.false_and, if_neg Bool.false_ne_true] at h
      split at h
      · cases h
      · next texts s₁ htexts =>
          obtain ⟨rfl, rfl⟩ := Prod.mk.inj (Option.some.inj h)
          exact ⟨[], texts, s, rfl, .nil, htexts⟩
  | true =>
      rw [Bool.true_and, if_pos (by simpa using hopening)] at h
      dsimp only at h
      split at h
      · cases h
      · next first s₁ hfirst =>
          split at h
          · cases h
          · next more s₂ hmore =>
              obtain ⟨rfl, rfl⟩ := Prod.mk.inj (Option.some.inj h)
              refine ⟨[first], more, s₁, rfl, .cons ⟨s, s₁, hfirst⟩ .nil, ?_⟩
              rwa [opened, if_pos rfl, List.flatten_singleton]

end Scaffold.Lorem

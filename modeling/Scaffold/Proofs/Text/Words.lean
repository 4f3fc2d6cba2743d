import Mathlib
import Scaffold.Proofs.Text.Blank
import Scaffold.Text.Split
/-!
How many words a text has.  Joining texts by a blank adds their words, and
neither marks behind the last word nor other letters in front of the first one
make another word.
-/
namespace Scaffold.Text

def wordCount (s : String) : Nat := (words s).length

def endsInWord (s : String) : Bool := s.toList.getLast?.any (!isBlank ·)

theorem endsInWord_iff {s : String} :
    endsInWord s = true ↔ ∃ cs c, s.toList = cs ++ [c] ∧ isBlank c = false := by
  rw [endsInWord]
  constructor
  · intro h
    cases hlast : s.toList.getLast? with
    | none => simp [hlast] at h
    | some c =>
        obtain ⟨cs, hcs⟩ := List.getLast?_eq_some_iff.1 hlast
        exact ⟨cs, c, hcs, by simpa [hlast] using h⟩
  · rintro ⟨cs, c, hcs, hc⟩
    simp [hcs, hc]

theorem endsInWord_append {t : String} (ht : endsInWord t = true) (s : String) :
    endsInWord (s ++ t) = true := by
  obtain ⟨cs, c, hcs, hc⟩ := endsInWord_iff.1 ht
  exact endsInWord_iff.2 ⟨s.toList ++ cs, c,
    by rw [String.toList_append, hcs, List.append_assoc], hc⟩

/-- Joined texts end as the last of them does. -/
theorem endsInWord_join {ss : List String} (hne : ss ≠ [])
    (h : ∀ s ∈ ss, endsInWord s = true) : endsInWord (join " " ss) = true := by
  induction ss with
  | nil => exact absurd rfl hne
  | cons s ss ih =>
      cases ss with
      | nil => exact h s List.mem_cons_self
      | cons t ss =>
          have hrest := ih (List.cons_ne_nil t ss) fun u hu =>
            h u (List.mem_cons_of_mem s hu)
          exact endsInWord_append hrest (s ++ " ")

/-! ### Reading words -/

/-- Characters that are no blanks go into the word that is being read. -/
theorem wordsFrom_append_of_forall {cs : List Char}
    (h : ∀ c ∈ cs, isBlank c = false) (word rest : List Char) :
    wordsFrom word (cs ++ rest) = wordsFrom (cs.reverse ++ word) rest := by
  induction cs generalizing word with
  | nil => rfl
  | cons c cs ih =>
      have hrest : ∀ d ∈ cs, isBlank d = false :=
        fun d hd => h d (List.mem_cons_of_mem c hd)
      have hc : ¬ isBlank c = true := by simp [h c List.mem_cons_self]
      rw [List.cons_append, wordsFrom, if_neg hc, ih hrest, List.reverse_cons,
        List.append_assoc]
      rfl

/-- What a word begins with does not matter for the number of words. -/
theorem length_wordsFrom_congr {word word' : List Char} (h : word ≠ [])
    (h' : word' ≠ []) (cs : List Char) :
    (wordsFrom word cs).length = (wordsFrom word' cs).length := by
  induction cs generalizing word word' with
  | nil => simp [wordsFrom, h, h']
  | cons c cs ih =>
      by_cases hc : isBlank c = true
      · simp [wordsFrom, hc, h, h']
      · have hword := ih (List.cons_ne_nil c word) (List.cons_ne_nil c word')
        simp only [wordsFrom, hc, Bool.false_eq_true, if_false, hword]

/-- What is being read is a word in any case. -/
theorem one_le_length_wordsFrom {word : List Char} (h : word ≠ [])
    (cs : List Char) : 1 ≤ (wordsFrom word cs).length := by
  induction cs generalizing word with
  | nil => simp [wordsFrom, h]
  | cons c cs ih =>
      by_cases hc : isBlank c = true
      · simp [wordsFrom, hc, h]
      · simpa [wordsFrom, hc] using ih (List.cons_ne_nil c word)

theorem length_wordsFrom_of_forall {cs : List Char} (hne : cs ≠ [])
    (h : ∀ c ∈ cs, isBlank c = false) (word : List Char) :
    (wordsFrom word cs).length = 1 := by
  have happend := wordsFrom_append_of_forall h word []
  rw [List.append_nil] at happend
  simp [happend, wordsFrom, hne]

/-- Characters behind the last word that are no blanks belong to it. -/
theorem length_wordsFrom_append {c : Char} (hc : isBlank c = false)
    {marks : List Char} (hmarks : ∀ d ∈ marks, isBlank d = false)
    (word cs : List Char) :
    (wordsFrom word (cs ++ c :: marks)).length =
      (wordsFrom word (cs ++ [c])).length := by
  induction cs generalizing word with
  | nil =>
      have hall : ∀ d ∈ c :: marks, isBlank d = false := by
        rintro d (_ | ⟨_, hd⟩)
        · exact hc
        · exact hmarks d hd
      exact (length_wordsFrom_of_forall (List.cons_ne_nil c marks) hall
        word).trans
        (length_wordsFrom_of_forall (List.cons_ne_nil c [])
          (by simpa using hc) word).symm
  | cons d ds ih =>
      simp only [List.cons_append, wordsFrom]
      split
      · split
        · exact ih []
        · simpa using ih []
      · exact ih (d :: word)

/-! ### Counting words -/

theorem wordCount_append {s marks : String} (hs : endsInWord s = true)
    (hmarks : marks.toList.all (!isBlank ·) = true) :
    wordCount (s ++ marks) = wordCount s := by
  obtain ⟨cs, c, hcs, hc⟩ := endsInWord_iff.1 hs
  rw [wordCount, wordCount, words, words, List.length_map, List.length_map,
    String.toList_append, hcs, List.append_assoc]
  exact length_wordsFrom_append hc (by simpa using hmarks) [] cs

/-- The words of joined texts are those of the texts. -/
theorem words_join (ss : List String) :
    words (join " " ss) = ss.flatMap words := by
  induction ss with
  | nil => rfl
  | cons s ss ih =>
      cases ss with
      | nil => simp [join]
      | cons t ss =>
          have hblank :=
            words_append_of_blank (b := ' ') (by decide) s (join " " (t :: ss))
          rw [List.flatMap_cons, ← ih, ← hblank]
          rfl

theorem wordCount_join (ss : List String) :
    wordCount (join " " ss) = (ss.map wordCount).sum := by
  rw [wordCount, words_join, List.length_flatMap]
  rfl

end Scaffold.Text

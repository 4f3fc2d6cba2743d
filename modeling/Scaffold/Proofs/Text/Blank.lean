import Scaffold.Text.Blank
/-!
Texts that trimming leaves alone: those that neither begin nor end with a blank.
Blanks also end words, and how many stand between two words does not matter.
-/
namespace Scaffold.Text

def isTrimmed (s : String) : Bool :=
  s.toList.head?.all (!isBlank ·) && s.toList.getLast?.all (!isBlank ·)

theorem dropBlanks_of_head? {cs : List Char}
    (h : cs.head?.all (!isBlank ·) = true) : dropBlanks cs = cs := by
  cases cs with
  | nil => rfl
  | cons c cs =>
      have hc : isBlank c = false := by simpa using h
      exact List.dropWhile_cons_of_neg (by simp [hc])

theorem trim_of_isTrimmed {s : String} (h : isTrimmed s = true) :
    trim s = s := by
  rw [isTrimmed, Bool.and_eq_true] at h
  have hbehind : s.toList.reverse.head?.all (!isBlank ·) = true := by
    rw [List.head?_reverse]
    exact h.2
  rw [trim, trimChars, dropBlanks_of_head? h.1, dropBlanks_of_head? hbehind,
    List.reverse_reverse, String.ofList_toList]

theorem isTrimmed_of_forall {s : String}
    (h : ∀ c ∈ s.toList, isBlank c = false) : isTrimmed s = true := by
  simp only [isTrimmed, Bool.and_eq_true, Option.all_eq_true, Bool.not_eq_true']
  exact ⟨fun c hc => h c (List.mem_of_mem_head? hc), fun c hc =>
    h c (List.mem_of_getLast? hc)⟩

theorem isTrimmed_append {s t : String} (hs : isTrimmed s = true)
    (ht : isTrimmed t = true) : isTrimmed (s ++ t) = true := by
  simp only [isTrimmed, Bool.and_eq_true, Option.all_eq_true, Bool.not_eq_true']
    at hs ht ⊢
  rw [String.toList_append, List.head?_append, List.getLast?_append]
  constructor
  · intro c hc
    rcases Option.or_eq_some_iff.1 hc with hfront | ⟨-, hfront⟩
    · exact hs.1 c hfront
    · exact ht.1 c hfront
  · intro c hc
    rcases Option.or_eq_some_iff.1 hc with hback | ⟨-, hback⟩
    · exact ht.2 c hback
    · exact hs.2 c hback

theorem mem_of_mem_dropBlanks {c : Char} {cs : List Char}
    (h : c ∈ dropBlanks cs) : c ∈ cs :=
  (List.dropWhile_sublist isBlank).subset h

theorem mem_of_mem_trim {c : Char} {s : String} (h : c ∈ (trim s).toList) :
    c ∈ s.toList := by
  rw [trim, String.toList_ofList, trimChars, List.mem_reverse] at h
  exact mem_of_mem_dropBlanks (List.mem_reverse.1 (mem_of_mem_dropBlanks h))

/-- Blanks end the word in front of them and are in none. -/
theorem wordsFrom_append_of_blank {bs : List Char} (hne : bs ≠ [])
    (hblank : ∀ b ∈ bs, isBlank b = true) (word cs : List Char) :
    wordsFrom word (bs ++ cs) = wordsFrom word [] ++ wordsFrom [] cs := by
  induction bs generalizing word with
  | nil => exact absurd rfl hne
  | cons b bs ih =>
      have hrest : wordsFrom [] (bs ++ cs) = wordsFrom [] cs := by
        cases bs with
        | nil => rfl
        | cons d ds =>
            exact ih (List.cons_ne_nil d ds)
              (fun e he => hblank e (List.mem_cons_of_mem b he)) []
      simp only [List.cons_append, wordsFrom, hblank b List.mem_cons_self,
        if_true, hrest]
      cases word <;> rfl

/-- A blank between two texts keeps their words apart. -/
theorem words_append_of_blank {b : Char} (hb : isBlank b = true)
    (s t : String) :
    words (s ++ String.singleton b ++ t) = words s ++ words t := by
  have hfrom : ∀ word cs : List Char,
      wordsFrom word (cs ++ b :: t.toList) = wordsFrom word cs ++
        wordsFrom [] t.toList := by
    intro word cs
    induction cs generalizing word with
    | nil =>
        exact wordsFrom_append_of_blank (List.cons_ne_nil b [])
          (by simpa using hb) word _
    | cons c cs ih =>
        rw [List.cons_append, wordsFrom, wordsFrom, ih, ih]
        split
        · split <;> rfl
        · rfl
  have htext : (s ++ String.singleton b ++ t).toList =
      s.toList ++ b :: t.toList := by
    simp
  rw [words, htext, hfrom, List.map_append]
  rfl

/-- Empty texts have no words. -/
theorem flatMap_words_filter (ss : List String) :
    (ss.filter (!·.isEmpty)).flatMap words = ss.flatMap words := by
  induction ss with
  | nil => rfl
  | cons s ss ih =>
      rw [List.filter_cons, List.flatMap_cons, ← ih]
      split
      case isTrue => rfl
      case isFalse hempty =>
        obtain rfl : s = "" := by simpa using hempty
        rfl

end Scaffold.Text

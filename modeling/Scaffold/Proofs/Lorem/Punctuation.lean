import Scaffold.Proofs.Lorem.Counting
import Scaffold.Proofs.Text.Split
import Scaffold.Random.ChaCha
/-!
The punctuation of placeholder text.  Commas are put behind entries, the first
letter becomes a capital and a mark is put at the end, and as no entry has marks
of its own, what is left without them and with the small letter again is the
entries in a row.  Main statement: `paragraphWithin_punctuated`.
-/
namespace Scaffold.Lorem

open Scaffold.Random Scaffold.Text

/-! ### Marks -/

/-- The marks that end sentences. -/
def isStop (c : Char) : Bool := c == '.' || c == '!' || c == '?'

def isMark (c : Char) : Bool := c == ',' || isStop c

def isPlain (w : String) : Bool := w.toList.all (!isMark ·)

def unmarked (text : String) : String :=
  String.ofList (text.toList.filter (!isMark ·))

/-- A text with its first letter in lower case. -/
def uncapitalize (text : String) : String :=
  match text.toList with
  | c :: cs => String.ofList (lowerChar c ++ cs)
  | [] => ""

theorem isStop_eq_false {c : Char} (h : isMark c = false) :
    isStop c = false := by
  rw [isMark, Bool.or_eq_false_iff] at h
  exact h.2

def hasNoMarkByte (w : String) : Bool :=
  w.toByteArray.data.toList.all fun b => b != 0x2C && b != 0x2E &&
    b != 0x21 && b != 0x3F

/-- Marks are single bytes, so they may be looked for among the bytes of a
text. -/
theorem isPlain_of_hasNoMarkByte {w : String} (h : hasNoMarkByte w = true) :
    isPlain w = true := by
  have hbytes : w.toByteArray.data.toList =
      w.toList.flatMap String.utf8EncodeChar := by
    conv_lhs => rw [← String.ofList_toList (s := w)]
    rw [String.toByteArray_ofList, List.utf8Encode]
    simp
  rw [hasNoMarkByte, hbytes, List.all_flatMap, List.all_eq_true] at h
  rw [isPlain, List.all_eq_true]
  intro c hc
  have hchar := h c hc
  rw [Bool.not_eq_true']
  by_contra hmark
  simp only [isMark, isStop, Bool.not_eq_false, Bool.or_eq_true, beq_iff_eq]
    at hmark
  obtain rfl | (rfl | rfl) | rfl := hmark <;> cases hchar

theorem exists_stop_of_mem_endings {mark : String} (h : mark ∈ endings) :
    ∃ stop, isStop stop = true ∧ mark = String.singleton stop := by
  simp only [endings, List.mem_cons, List.not_mem_nil, or_false] at h
  rcases h with rfl | rfl | rfl | rfl
  · exact ⟨'?', rfl, rfl⟩
  · exact ⟨'!', rfl, rfl⟩
  · exact ⟨'.', rfl, rfl⟩
  · exact ⟨'.', rfl, rfl⟩

theorem unmarked_append (s t : String) :
    unmarked (s ++ t) = unmarked s ++ unmarked t := by
  rw [unmarked, String.toList_append, List.filter_append, String.ofList_append,
    unmarked, unmarked]

theorem unmarked_of_isPlain {w : String} (h : isPlain w = true) :
    unmarked w = w := by
  rw [unmarked, List.filter_eq_self.2 (List.all_eq_true.1 h),
    String.ofList_toList]

theorem unmarked_join (ss : List String) :
    unmarked (join " " ss) = join " " (ss.map unmarked) := by
  induction ss with
  | nil => rfl
  | cons s ss ih =>
      cases ss with
      | nil => rfl
      | cons t ss =>
          rw [join_cons_cons, unmarked_append, unmarked_append, ih]
          rfl

/-- A joined text has the stops of the texts. -/
theorem countP_isStop_join (ss : List String) :
    (join " " ss).toList.countP isStop =
      (ss.map (·.toList.countP isStop)).sum := by
  induction ss with
  | nil => rfl
  | cons s ss ih =>
      cases ss with
      | nil => simp [join]
      | cons t ss =>
          rw [join_cons_cons, String.toList_append, String.toList_append,
            List.countP_append, List.countP_append, ih]
          rfl

/-! ### Capitals -/

section Capitals

variable {w : String}

/-- Whether a letter has one capital, from which it comes back. -/
def hasCapital (c : Char) : Bool :=
  (upperChar c).any fun C => upperChar c == [C] && C != c &&
    lowerChar C == [c] && !isMark C

theorem exists_capital {c : Char} (h : isSmall c = true) :
    ∃ C, upperChar c = [C] ∧ C ≠ c ∧ lowerChar C = [c] ∧ isMark C = false := by
  have hcapital : hasCapital c = true :=
    forall_of_isSmall (p := (hasCapital · = true)) (by decide +kernel)
      (by decide +kernel) h
  simp only [hasCapital, List.any_eq_true, Bool.and_eq_true, beq_iff_eq,
    bne_iff_ne, ne_eq, Bool.not_eq_true'] at hcapital
  obtain ⟨C, -, ⟨⟨hupper, hne⟩, hlower⟩, hmark⟩ := hcapital
  exact ⟨C, hupper, hne, hlower, hmark⟩

/-- The first letter of an entry becomes a capital and nothing else changes. -/
theorem toList_capitalize (h : isEntry w = true) :
    ∃ c C cs, w.toList = c :: cs ∧ upperChar c = [C] ∧ C ≠ c ∧
    lowerChar C = [c] ∧
      isMark C = false ∧ (capitalize w).toList = C :: cs := by
  obtain ⟨c, cs, hcs, hsmall⟩ := exists_small_of_isEntry h
  obtain ⟨C, hupper, hne, hlower, hmark⟩ := exists_capital hsmall
  refine ⟨c, C, cs, hcs, hupper, hne, hlower, hmark, ?_⟩
  rw [capitalize, hcs]
  dsimp only
  rw [hupper, String.toList_ofList, List.singleton_append]

theorem capitalize_append (h : isEntry w = true) (t : String) :
    capitalize (w ++ t) = capitalize w ++ t := by
  obtain ⟨c, cs, hcs, -⟩ := exists_small_of_isEntry h
  rw [capitalize, capitalize, String.toList_append, hcs]
  dsimp only [List.cons_append]
  rw [← List.append_assoc, String.ofList_append, String.ofList_toList]

theorem uncapitalize_capitalize_append (h : isEntry w = true) (t : String) :
    uncapitalize (capitalize w ++ t) = w ++ t := by
  obtain ⟨c, C, cs, hcs, -, -, hlower, -, hcapital⟩ := toList_capitalize h
  rw [uncapitalize, String.toList_append, hcapital]
  dsimp only [List.cons_append]
  rw [hlower, ← List.append_assoc, List.singleton_append, ← hcs,
    String.ofList_append, String.ofList_toList, String.ofList_toList]

theorem isPlain_capitalize (h : isEntry w = true) (hplain : isPlain w = true) :
    isPlain (capitalize w) = true := by
  obtain ⟨c, C, cs, hcs, -, -, -, hmark, hcapital⟩ := toList_capitalize h
  rw [isPlain, hcs, List.all_cons, Bool.and_eq_true] at hplain
  rw [isPlain, hcapital, List.all_cons, hmark]
  exact hplain.2

end Capitals

/-! ### Punctuated texts -/

def TakesComma (entry marked : String) : Prop :=
  marked = entry ∨ marked = entry ++ ","

/-- A sentence of entries: none of these has a mark, but in the sentence each
but the last may have one comma behind it, the sentence ends with its only stop,
and it begins with the capital of its first letter.  Without marks and with the
small letter it is the entries in a row. -/
structure Punctuates (entries : List String) (text : String) : Prop where
  plain : ∀ w ∈ entries, isPlain w = true
  marked : ∃ marked stop, text = phrase marked ++ String.singleton stop ∧
    isStop stop = true ∧
    List.Forall₂ TakesComma entries marked ∧ marked.getLast? = entries.getLast?
  stops : text.toList.countP isStop = 1
  capital : ∀ c ∈ entries.head?.bind (·.toList.head?),
    ∃ C, upperChar c = [C] ∧ C ≠ c ∧ text.toList.head? = some C
  restored : uncapitalize (unmarked text) = join " " entries

section Entries

variable {entries marked : List String}

theorem TakesComma.unmarked {entry marked : String}
    (h : TakesComma entry marked) (hplain : isPlain entry = true) :
    Lorem.unmarked marked = entry := by
  rcases h with rfl | rfl
  · exact unmarked_of_isPlain hplain
  · rw [unmarked_append, unmarked_of_isPlain hplain]
    exact String.append_empty

theorem TakesComma.countP_isStop {entry marked : String}
    (h : TakesComma entry marked) (hplain : isPlain entry = true) :
    marked.toList.countP isStop = 0 := by
  have hentry : entry.toList.countP isStop = 0 := by
    rw [List.countP_eq_zero]
    intro c hc
    have hmark : isMark c = false := by
      simpa using List.all_eq_true.1 hplain c hc
    simp [isStop_eq_false hmark]
  rcases h with rfl | rfl
  · exact hentry
  · rw [String.toList_append, List.countP_append, hentry]
    rfl

theorem TakesComma.exists_append {entry marked : String}
    (h : TakesComma entry marked) : ∃ t, marked = entry ++ t := by
  rcases h with rfl | rfl
  · exact ⟨"", String.append_empty.symm⟩
  · exact ⟨",", rfl⟩

theorem TakesComma.capitalize {entry marked : String}
    (h : TakesComma entry marked) (hentry : isEntry entry = true) :
    TakesComma (capitalize entry) (Lorem.capitalize marked) := by
  rcases h with rfl | rfl
  · exact .inl rfl
  · exact .inr (capitalize_append hentry ",")

/-- A word without commas gets one at most. -/
theorem takesComma_of_commaed {word marked : String} (h : Commaed word marked)
    (hplain : isPlain word = true) : TakesComma word marked := by
  rcases h with rfl | rfl
  · exact .inl rfl
  · right
    rw [withComma, if_neg]
    intro hlast
    have hcomma := List.all_eq_true.1 hplain ',' (List.mem_of_getLast? hlast)
    cases hcomma

theorem takesCommas_of_commaed (h : List.Forall₂ Commaed entries marked)
    (hplain : ∀ w ∈ entries, isPlain w = true) :
    List.Forall₂ TakesComma entries marked := by
  induction h with
  | nil => exact .nil
  | cons hword hrest ih =>
      exact .cons (takesComma_of_commaed hword (hplain _ List.mem_cons_self))
        (ih fun w hw => hplain w (List.mem_cons_of_mem _ hw))

/-- Without the commas a row is what it was. -/
theorem unmarked_row (h : List.Forall₂ TakesComma entries marked)
    (hplain : ∀ w ∈ entries, isPlain w = true) :
    marked.map unmarked = entries := by
  induction h with
  | nil => rfl
  | cons hword hrest ih =>
      rw [List.map_cons, hword.unmarked (hplain _ List.mem_cons_self),
        ih fun w hw => hplain w (List.mem_cons_of_mem _ hw)]

theorem countP_isStop_row (h : List.Forall₂ TakesComma entries marked)
    (hplain : ∀ w ∈ entries, isPlain w = true) :
    (join " " marked).toList.countP isStop = 0 := by
  rw [countP_isStop_join]
  induction h with
  | nil => rfl
  | cons hword hrest ih =>
      rw [List.map_cons, List.sum_cons,
        hword.countP_isStop (hplain _ List.mem_cons_self), ih fun w hw =>
        hplain w (List.mem_cons_of_mem _ hw)]

end Entries

/-! ### Sentences -/

section Sentences

variable {σ : Type} [Source σ] {tries : Nat} {s s' : σ} {v : Vocabulary}
    {text : String}

/-- A row with commas is plain entries again behind its stop, and the first one
has its capital. -/
theorem punctuates_phrase {entries marked : List String}
    (hentries : ∀ w ∈ entries, isEntry w = true)
    (hplain : ∀ w ∈ entries, isPlain w = true)
    (hmarked : List.Forall₂ TakesComma entries marked)
    (hlast : marked.getLast? = entries.getLast?) {stop : Char}
    (hstop : isStop stop = true) :
    Punctuates entries (phrase marked ++ String.singleton stop) := by
  have hmark : isMark stop = true := by rw [isMark, hstop, Bool.or_true]
  have hnone : unmarked (String.singleton stop) = "" := by
    simp [unmarked, hmark]
  have hone : (String.singleton stop).toList.countP isStop = 1 := by
    simp [hstop]
  cases hmarked with
  | nil =>
      exact
        { plain := hplain
          marked := ⟨[], stop, rfl, hstop, .nil, rfl⟩
          stops := by rw [phrase, String.empty_append, hone]
          capital := by simp
          restored := by rw [phrase, String.empty_append, hnone]; rfl }
  | @cons w m ws ms hword hrest =>
      have hentry := hentries w List.mem_cons_self
      have hrow :
          List.Forall₂ TakesComma (capitalize w :: ws) (capitalize m :: ms) :=
        .cons (hword.capitalize hentry) hrest
      have hplainRow : ∀ u ∈ capitalize w :: ws, isPlain u = true := by
        rintro u (_ | ⟨_, hu⟩)
        · exact isPlain_capitalize hentry (hplain w List.mem_cons_self)
        · exact hplain u (List.mem_cons_of_mem w hu)
      have hunmarked : unmarked (phrase (m :: ms) ++ String.singleton stop) =
          capitalize w ++ join " " ("" :: ws) := by
        rw [unmarked_append, hnone, String.append_empty, phrase, unmarked_join,
          unmarked_row hrow hplainRow, join_cons]
      exact
        { plain := hplain
          marked := ⟨m :: ms, stop, rfl, hstop, .cons hword hrest, hlast⟩
          stops := by
            rw [String.toList_append, List.countP_append, phrase,
              countP_isStop_row hrow hplainRow, hone]
          capital := by
            obtain ⟨c, C, cs, hcs, hupper, hne, -, -, hcapital⟩ :=
              toList_capitalize hentry
            obtain ⟨t, ht⟩ := (hword.capitalize hentry).exists_append
            intro d hd
            obtain rfl : c = d := by simpa [hcs] using hd
            refine ⟨C, hupper, hne, ?_⟩
            rw [phrase, join_cons, ht, String.append_assoc, String.append_assoc,
              String.toList_append, hcapital, List.cons_append, List.head?_cons]
          restored := by
            rw [hunmarked, uncapitalize_capitalize_append hentry,
              join_cons _ w] }

/-! ### Drawn entries -/

/-- The entries of a drawn sentence: not too many of them, from different places
of the words. -/
structure IsDrawn (words entries : List String) : Prop where
  atLeast : 1 ≤ entries.length
  atMost : entries.length ≤ 29
  places : ∃ places : List Nat, places.Nodup ∧
    places.map (words[·]?) = entries.map some

/-- A single word is the only one of its text. -/
theorem words_of_isSingle {w : String} (h : isSingle w = true) :
    words w = [w] := by
  rw [isSingle] at h
  split at h
  · cases h
  · next c cs hcs =>
      rw [Bool.and_eq_true] at h
      have hblank : ∀ d ∈ c :: cs, isBlank d = false := by simpa using h.2
      have hwords := wordsFrom_append_of_forall hblank [] []
      rw [List.append_nil, List.append_nil] at hwords
      rw [words, hcs, hwords, wordsFrom, if_neg (by simp), List.reverse_reverse,
        List.map_singleton, ← hcs, String.ofList_toList]

theorem words_join_of_isSingle {ws : List String}
    (h : ∀ w ∈ ws, isSingle w = true) : words (join " " ws) = ws := by
  rw [words_join]
  induction ws with
  | nil => rfl
  | cons w ws ih =>
      rw [List.flatMap_cons, words_of_isSingle (h w List.mem_cons_self),
        ih fun u hu => h u (List.mem_cons_of_mem w hu), List.singleton_append]

theorem map_getElem?_of_forall {words : List String} {places : List Nat}
    (h : ∀ i ∈ places, i < words.length) :
    places.map (words[·]?) = (places.filterMap (words[·]?)).map some := by
  induction places with
  | nil => rfl
  | cons i places ih =>
      have hi := List.getElem?_eq_getElem (h i List.mem_cons_self)
      rw [List.filterMap_cons_some hi, List.map_cons, List.map_cons, hi,
        ih fun j hj => h j (List.mem_cons_of_mem i hj)]

/-- Few words of a sample are a drawn sentence's. -/
theorem isDrawn_of_sample {words picked : List String} (hwords : words ≠ [])
    {size count : Nat} (hsize : size < 30)
    (h : sample tries words (min size count) s = some (picked, s'))
    (hpicked : picked ≠ []) : IsDrawn words picked := by
  have hlength := (length_of_sample hwords h).1
  obtain ⟨places, hplaces, -, rfl⟩ := exists_places_of_sample hwords h
  exact ⟨List.length_pos_iff.2 hpicked, by omega, places, hplaces.distinct,
    map_getElem?_of_forall hplaces.below⟩

/-- Whatever mark is drawn, a sentence of plain entries is punctuated. -/
theorem punctuates_of_sentence {fullStop : Bool} {entries : List String}
    (hentries : ∀ w ∈ entries, isEntry w = true)
    (hplain : ∀ w ∈ entries, isPlain w = true)
    (h : sentence tries fullStop entries s = some (text, s')) :
    Punctuates entries text := by
  obtain ⟨marked, s₁, hmarked, mark, hmark, rfl⟩ := insertCommas_of_sentence h
  obtain ⟨stop, hstop, rfl⟩ := exists_stop_of_mem_endings hmark
  exact punctuates_phrase hentries hplain
    (takesCommas_of_commaed (commaed_of_insertCommas hmarked) hplain)
    (getLast?_of_insertCommas hmarked) hstop

/-- So is the sentence that a text opens with. -/
theorem punctuates_opened {count : Nat} {opens : Bool} {first : List String}
    (hentries : ∀ w ∈ v.opening, isEntry w = true)
    (hplain : ∀ w ∈ v.opening, isPlain w = true)
    (h : List.Forall₂ (fun entries text => ∃ s s₁ : σ, sentence tries true
      entries s = some (text, s₁)) (opened v count opens) first) :
    List.Forall₂ Punctuates (opened v count opens) first := by
  cases opens with
  | false => simpa [opened] using h
  | true =>
      rw [opened, if_pos rfl] at h ⊢
      obtain ⟨text, more, ⟨s, s₁, hsentence⟩, hmore, rfl⟩ :=
        List.forall₂_cons_left_iff.1 h
      cases hmore
      exact .cons (punctuates_of_sentence (fun w hw =>
        hentries w (List.mem_of_mem_take hw)) (fun w hw =>
          hplain w (List.mem_of_mem_take hw)) hsentence) .nil

theorem length_opened_le (v : Vocabulary) (count : Nat) (opens : Bool) :
    (opened v count opens).flatten.length ≤ count := by
  cases opens with
  | false => exact Nat.zero_le count
  | true =>
      rw [opened, if_pos rfl, List.flatten_singleton]
      exact List.length_take_le count v.opening

/-- Drawn sentences are punctuated, and have as many entries as wanted
together. -/
theorem punctuates_of_sentences (hv : v.IsSound)
    (hplain : ∀ w ∈ v.words, isPlain w = true) {count : Nat}
    {texts : List String}
    (h : sentences tries v.words count s = some (texts, s')) :
    ∃ drawn, List.Forall₂ Punctuates drawn texts ∧
      (∀ entries ∈ drawn, IsDrawn v.words entries ∧
        words (join " " entries) = entries) ∧
      drawn.flatten.length = count := by
  induction count using Nat.strongRecOn generalizing s texts with
  | ind count ih =>
      rcases eq_nil_or_cons_of_sentences hv.nonempty h with ⟨rfl, rfl⟩ |
        ⟨size, picked, text, more, s₁, s₂, s₃, rfl, -, hsize, hsample, hne,
          hsentence, hmore⟩
      · exact ⟨[], .nil, by simp, rfl⟩
      · obtain ⟨hlength, hmem⟩ := length_of_sample hv.nonempty hsample
        have hsingle : ∀ w ∈ picked, isSingle w = true :=
          fun w hw => hv.single w (hmem w hw)
        have hpicked := List.length_pos_iff.2 hne
        obtain ⟨drawn, hdrawn, hentries, hcount⟩ :=
          ih (count - picked.length) (by omega) hmore
        have hfirst := punctuates_of_sentence
          (fun w hw => isEntry_of_isSingle (hsingle w hw))
            (fun w hw => hplain w (hmem w hw))
          hsentence
        refine ⟨picked :: drawn, .cons hfirst hdrawn, ?_, ?_⟩
        · rintro entries (_ | ⟨_, hmember⟩)
          · exact ⟨isDrawn_of_sample hv.nonempty hsize hsample hne,
              words_join_of_isSingle hsingle⟩
          · exact hentries entries hmember
        · rw [List.flatten_cons, List.length_append, hcount]
          omega

end Sentences

/-! ### Vocabularies -/

namespace Vocabulary

variable {v : Vocabulary}

theorem isSound_of_mem (h : v ∈ [latin, russian, spanish]) : v.IsSound := by
  simp only [List.mem_cons, List.not_mem_nil, or_false] at h
  rcases h with rfl | rfl | rfl
  · exact isSound_latin
  · exact isSound_russian
  · exact isSound_spanish

theorem isPlain_of_mem (h : v ∈ [latin, russian, spanish]) :
    ∀ w ∈ v.opening ++ v.words, isPlain w = true := by
  -- decoding all words would take long
  have hbytes : ∀ v ∈ [latin, russian, spanish], ∀ w ∈ v.opening ++ v.words,
      hasNoMarkByte w = true := by
    decide +kernel
  exact fun w hw => isPlain_of_hasNoMarkByte (hbytes v h w hw)

end Vocabulary

/-! ### Paragraphs -/

/-- Placeholder text is sentences with blanks between them, the first of which
has the opening if there is one, and the others drawn entries that can be read
off them. -/
theorem paragraphWithin_punctuated {σ : Type} [Source σ] {tries : Nat}
    {s s' : σ} {v : Vocabulary}
    (hv : v ∈ [Vocabulary.latin, Vocabulary.russian, Vocabulary.spanish])
    {count : Nat} {opens : Bool} {text : String}
    (h : paragraphWithin tries v count opens s = some (text, s')) :
    ∃ sentences drawn, text = join " " sentences ∧
      List.Forall₂ Punctuates (opened v count opens ++ drawn) sentences ∧
      (∀ entries ∈ drawn, IsDrawn v.words entries ∧
        words (join " " entries) = entries) ∧
      (opened v count opens ++ drawn).flatten.length = count := by
  have hsound := Vocabulary.isSound_of_mem hv
  have hplain := Vocabulary.isPlain_of_mem hv
  obtain ⟨first, rest, s₁, rfl, hfirst, hrest⟩ :=
    sentences_of_paragraphWithin hsound.opens h
  obtain ⟨drawn, hdrawn, hentries, hcount⟩ := punctuates_of_sentences hsound
    (fun w hw => hplain w (List.mem_append_right _ hw)) hrest
  have hopened := punctuates_opened hsound.opening
    (fun w hw => hplain w (List.mem_append_left _ hw)) hfirst
  have hlength := length_opened_le v count opens
  refine ⟨first ++ rest, drawn, rfl, List.rel_append hopened hdrawn,
    hentries, ?_⟩
  rw [List.flatten_append, List.length_append, hcount]
  omega

namespace PunctuationWitness

/-- The Russian opening and two words more, one of which has a comma. -/
def twelveEntries : String :=
  "Далеко-далеко за словесными горами в стране, гласных и согласных живут рыбные тексты. " ++
    "Берегу, подзаголовок."

theorem paragraphWithin_punctuated_twelve :
    ∃ s', paragraphWithin attempts .russian 12 true (ChaCha.ofSeed 0) =
      some (twelveEntries, s') ∧
      ∃ sentences drawn, twelveEntries = join " " sentences ∧
        List.Forall₂ Punctuates
          (Vocabulary.russian.opening :: drawn) sentences ∧
        (∀ entries ∈ drawn,
          IsDrawn Vocabulary.russian.words entries ∧
            words (join " " entries) = entries) ∧
        drawn.flatten.length = 2 := by
  have hdraw :
      (paragraphWithin attempts .russian 12 true (ChaCha.ofSeed 0)).map (·.1) =
      some twelveEntries := by
    decide +kernel
  obtain ⟨⟨text, s'⟩, hs', htext⟩ := Option.map_eq_some_iff.1 hdraw
  obtain rfl : text = twelveEntries := htext
  obtain ⟨sentences, drawn, hjoin, hpunctuates, hdrawn, hlength⟩ :=
    paragraphWithin_punctuated (by simp) hs'
  have hopened : opened .russian 12 true = [Vocabulary.russian.opening] := rfl
  have hten : Vocabulary.russian.opening.length = 10 := rfl
  rw [hopened] at hpunctuates hlength
  rw [List.singleton_append, List.flatten_cons, List.length_append, hten]
    at hlength
  exact ⟨s', hs', sentences, drawn, hjoin, hpunctuates, hdrawn, by omega⟩

end PunctuationWitness

end Scaffold.Lorem

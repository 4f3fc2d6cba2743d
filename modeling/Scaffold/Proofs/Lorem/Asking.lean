import Scaffold.Proofs.Lorem.Counting
import Scaffold.Proofs.Refinement.Arranging
import Scaffold.Random.ChaCha
/-!
Names that ask for placeholder text.  A name with two numbers is read as a
range, and the text that takes the place of its node has a number of words in
that range, up to what entries of the opening have beyond one.  Main statement:
`placeholder_has_words`.
-/
namespace Scaffold.Lorem

open Scaffold.Random Scaffold.Text

/-! ### Names -/

/-- A name that asks for a range of words: what is `lorem` in lower case, the
suffix of a language, and two numbers with a dash between them. -/
structure RangeName where
  head : List Char
  suffix : List Char
  low : List Char
  high : List Char
  named : head.map Char.toLower = "lorem".toList
  letters : ∀ c ∈ suffix, isFoldedLetter c = true
  lowNumber : low ≠ [] ∧ ∀ c ∈ low, c.isDigit = true
  highNumber : high ≠ [] ∧ ∀ c ∈ high, c.isDigit = true

namespace RangeName

variable (n : RangeName)

def text : String :=
  String.ofList (n.head ++ (n.suffix ++ (n.low ++ '-' :: n.high)))

/-- The value of the first number, but at least one; a number beyond the largest
word does not count. -/
def fewest : Nat :=
  if Numeral.digitsValue n.low ≤ Numeral.wordMax then
    max (Numeral.digitsValue n.low) 1
  else defaultWordCount

/-- The range is empty if the second number is less than the first one or does
not count. -/
def request : Request where
  suffix := lowercase (String.ofList n.suffix)
  fewest := n.fewest
  most :=
    if Numeral.digitsValue n.high ≤ Numeral.wordMax then
      max (Numeral.digitsValue n.high) n.fewest
    else n.fewest

theorem most_bounds :
    n.fewest ≤ n.request.most ∧
    n.request.most ≤ max n.fewest (Numeral.digitsValue n.high) := by
  rw [request]
  dsimp only
  split
  · exact ⟨Nat.le_max_right _ _, Nat.le_of_eq (Nat.max_comm _ _)⟩
  · exact ⟨Nat.le_refl _, Nat.le_max_left _ _⟩

theorem one_le_fewest : 1 ≤ n.fewest := by
  rw [fewest]
  split
  · exact Nat.le_max_right _ _
  · decide

end RangeName

theorem isFoldedLetter_of_isDigit {c : Char} (h : c.isDigit = true) :
    isFoldedLetter c = false := by
  have hdigits : ∀ k < 58, 48 ≤ k → isFoldedLetter (Char.ofNat k) = false := by
    decide
  rw [Char.isDigit, Bool.and_eq_true, decide_eq_true_eq, decide_eq_true_eq] at h
  have hc := hdigits c.toNat (Nat.lt_succ_of_le h.2) h.1
  rwa [Char.ofNat_toNat] at hc

theorem isDecimalDigit_of_isDigit {c : Char} (h : c.isDigit = true) :
    isDecimalDigit c = true := by
  have hascii : c.toNat < 0x80 := by
    rw [Char.isDigit, Bool.and_eq_true, decide_eq_true_eq, decide_eq_true_eq]
      at h
    exact Nat.lt_of_le_of_lt h.2 (by decide)
  rw [isDecimalDigit, if_pos hascii, h]

/-- Digits are a count as long as it fits a word. -/
theorem count?_digits {ds : List Char}
    (hds : ds ≠ [] ∧ ∀ c ∈ ds, c.isDigit = true) :
    count? ds =
      if Numeral.digitsValue ds ≤ Numeral.wordMax then
        some (Numeral.digitsValue ds) else none := by
  have hne : ds.isEmpty = false := by simpa using hds.1
  have hall : ds.all Char.isDigit = true := List.all_eq_true.2 hds.2
  rw [count?, hne, hall]
  rfl

theorem takeWhile_front {p : Char → Bool} {cs : List Char}
    (h : ∀ c ∈ cs, p c = true) {d : Char} (hd : p d = false) (ds : List Char) :
    (cs ++ d :: ds).takeWhile p = cs := by
  rw [List.takeWhile_append_of_pos h, List.takeWhile_cons_of_neg (by simp [hd]),
    List.append_nil]

/-- Such a name is read as what it asks for. -/
theorem ofName?_text (n : RangeName) :
    Request.ofName? n.text = some n.request := by
  have hlength : n.head.length = 5 := by
    simpa using congrArg List.length n.named
  have hhead : (n.text.toList.take 5).map Char.toLower = "lorem".toList := by
    rw [RangeName.text, String.toList_ofList, List.take_left' hlength, n.named]
  have hbehind : n.text.toList.drop 5 = n.suffix ++
      (n.low ++ '-' :: n.high) := by
    rw [RangeName.text, String.toList_ofList, List.drop_left' hlength]
  have hsuffix : (n.suffix ++ (n.low ++ '-' :: n.high)).takeWhile
      isFoldedLetter = n.suffix := by
    obtain ⟨d, ds, hlow⟩ := List.exists_cons_of_ne_nil n.lowNumber.1
    have hd := isFoldedLetter_of_isDigit (n.lowNumber.2 d (by simp [hlow]))
    rw [hlow]
    exact takeWhile_front n.letters hd _
  have hdigits : (n.low ++ '-' :: n.high).takeWhile isDecimalDigit = n.low :=
    takeWhile_front (fun c hc => isDecimalDigit_of_isDigit (n.lowNumber.2 c hc))
      (by decide) _
  have hupper : upperBound? ('-' :: n.high) = some (count? n.high) := by
    have hall : n.high.all isDecimalDigit = true :=
      List.all_eq_true.2 fun c hc =>
        isDecimalDigit_of_isDigit (n.highNumber.2 c hc)
    rw [upperBound?, if_pos hall]
  rw [Request.ofName?]
  dsimp only
  rw [hhead, if_neg (by simp), hbehind, hsuffix, List.drop_left,
    hdigits, List.drop_left, hupper, count?_digits n.lowNumber,
    count?_digits n.highNumber, RangeName.request, RangeName.fewest]
  -- either number may be too large for a word
  by_cases hlow : Numeral.digitsValue n.low ≤ Numeral.wordMax <;>
    by_cases hhigh : Numeral.digitsValue n.high ≤ Numeral.wordMax <;>
    simp only [hlow, hhigh, if_true, if_false] <;> rfl

/-! ### Drawn texts -/

section

variable {σ : Type} [Source σ]

/-- A text that is drawn for a request has a number of words that it asks for,
beside the surplus. -/
theorem wordCount_draw {tries : Nat} {request : Request}
    (hfewest : 1 ≤ request.fewest) (hmost : request.fewest ≤ request.most)
    {opens : Bool} {s s' : σ} {text : String}
    (h : request.draw tries opens s = some (text, s')) :
    ∃ count, request.fewest ≤ count ∧ count ≤ request.most ∧ wordCount text =
      count + if opens then
        surplus ((Vocabulary.ofSuffix request.suffix).opening.take count)
        else 0 := by
  rw [Request.draw] at h
  split at h
  · next count s₁ hcount =>
      obtain ⟨hleast, hlast⟩ := within_bounds hcount
      rw [Nat.max_eq_right hmost] at hlast
      exact ⟨count, hleast, hlast, wordCount_paragraphWithin
        (Vocabulary.isSound_ofSuffix _) (Nat.le_trans hfewest hleast) h⟩
  · cases h

/-- Whatever is drawn, placeholder text has as many words as asked for, except
that the fifth and the seventh entry of the Russian opening are two words each.
A node whose name asks for a range becomes a text of a number of words from that
range, with the same exception. -/
theorem placeholder_has_words (tries : Nat) (s s' : σ) (text : String) :
    (∀ v ∈ [Vocabulary.latin, Vocabulary.russian, Vocabulary.spanish],
      ∀ count opens, 1 ≤ count →
        paragraphWithin tries v count opens s = some (text, s') →
          wordCount text = count + if opens then
            surplus (v.opening.take count) else 0) ∧
      (∀ count, surplus (Vocabulary.latin.opening.take count) = 0 ∧
        surplus (Vocabulary.spanish.opening.take count) = 0 ∧
        surplus (Vocabulary.russian.opening.take count) =
          (if 5 ≤ count then 1 else 0) + (if 7 ≤ count then 1 else 0)) ∧
      ∀ n : RangeName, Request.ofName? n.text = some n.request ∧
        (∀ opens, n.request.draw tries opens s = some (text, s') →
          ∃ count, n.fewest ≤ count ∧
            count ≤ max n.fewest (Numeral.digitsValue n.high) ∧
            wordCount text = count + if opens then
              surplus ((Vocabulary.ofSuffix n.request.suffix).opening.take
                count) else 0) ∧
        ∀ c above t children, t.name = some n.text →
          n.request.draw attempts (Node.opensText above t) s = some (text, s') →
            (Node.refineNode c above ⟨t, children⟩ s).1.tag.value =
              some [.text text] := by
  refine ⟨?_, fun count => ⟨Vocabulary.surplus_latin count,
    Vocabulary.surplus_spanish count, Vocabulary.surplus_russian count⟩,
    fun n => ⟨ofName?_text n, ?_, ?_⟩⟩
  · intro v hv count opens hcount h
    have hsound : v.IsSound := by
      simp only [List.mem_cons, List.not_mem_nil, or_false] at hv
      rcases hv with rfl | rfl | rfl
      · exact Vocabulary.isSound_latin
      · exact Vocabulary.isSound_russian
      · exact Vocabulary.isSound_spanish
    exact wordCount_paragraphWithin hsound hcount h
  · intro opens h
    obtain ⟨hmost, hbound⟩ := n.most_bounds
    obtain ⟨count, hleast, hlast, hwords⟩ :=
      wordCount_draw n.one_le_fewest hmost h
    exact ⟨count, hleast, Nat.le_trans hlast hbound, hwords⟩
  · intro c above t children hname h
    exact Node.value_refineNode hname (ofName?_text n) h children

end

namespace AskingWitness

def seed : ChaCha.Generator := ChaCha.ofSeed 0

/-- The name `Loremru5-5`. -/
def fiveName : RangeName where
  head := ['L', 'o', 'r', 'e', 'm']
  suffix := ['r', 'u']
  low := ['5']
  high := ['5']
  named := by decide
  letters := by simp [isFoldedLetter]
  lowNumber := by simp
  highNumber := by simp

/-- The first five entries of the Russian opening. -/
def fiveEntries : String := "Далеко-далеко за словесными горами в стране."

theorem draw_five :
    ∃ s', fiveName.request.draw attempts true seed =
      some (fiveEntries, s') := by
  have hdraw : (fiveName.request.draw attempts true seed).map (·.1) =
      some fiveEntries := by
    decide +kernel
  obtain ⟨⟨text, s'⟩, hs', htext⟩ := Option.map_eq_some_iff.1 hdraw
  exact ⟨s', hs'.trans (congrArg some (Prod.ext htext rfl))⟩

/-- Nine Latin entries, one of which is drawn, are nine words; five Russian ones
are six, and so many has the text of a node that asks for five. -/
theorem placeholder_has_words_nine :
    (∃ text s', paragraphWithin attempts Vocabulary.latin 9 true seed =
      some (text, s') ∧
        wordCount text = 9) ∧
      ∃ s', fiveName.request.draw attempts (Node.opensText [] {}) seed =
        some (fiveEntries, s') ∧
        wordCount fiveEntries = 6 ∧
        (Node.refineNode {} [] ⟨{ name := some fiveName.text },
          []⟩ seed).1.tag.value =
          some [.text fiveEntries] := by
  constructor
  · have hsome : (paragraphWithin attempts Vocabulary.latin 9 true
        seed).isSome = true := by
      decide +kernel
    obtain ⟨⟨text, s'⟩, h⟩ := Option.isSome_iff_exists.1 hsome
    obtain ⟨hparagraph, hsurplus, -⟩ :=
      placeholder_has_words attempts seed s' text
    refine ⟨text, s', h, ?_⟩
    rw [hparagraph Vocabulary.latin (by simp) 9 true (by decide) h, if_pos rfl,
      (hsurplus 9).1]
  · obtain ⟨s', h⟩ := draw_five
    obtain ⟨-, hsurplus, hname⟩ :=
      placeholder_has_words attempts seed s' fiveEntries
    obtain ⟨-, hdrawn, hnode⟩ := hname fiveName
    refine ⟨s', h, ?_, hnode {} [] _ [] rfl h⟩
    obtain ⟨count, hleast, hlast, hwords⟩ := hdrawn true h
    have hfewest : fiveName.fewest = 5 := by decide
    have hhigh : Numeral.digitsValue fiveName.high = 5 := by decide
    have hsuffix : fiveName.request.suffix = "ru" := by decide +kernel
    obtain rfl : count = 5 := by
      rw [hfewest] at hleast hlast
      rw [hhigh] at hlast
      omega
    rw [hwords, hsuffix, if_pos rfl, Vocabulary.ofSuffix, if_pos rfl,
      (hsurplus 5).2.2]
    rfl

/-- Five entries are asked for, and the text has six words. -/
theorem requested_words_exceeded :
    (paragraph Vocabulary.russian 5 true seed).map (·.1) = some fiveEntries ∧
      Text.words fiveEntries =
        ["Далеко-далеко", "за", "словесными", "горами", "в", "стране."] ∧
      ¬ ∀ text s', paragraph Vocabulary.russian 5 true seed = some (text, s') →
        (Text.words text).length = 5 := by
  have hparagraph : (paragraph Vocabulary.russian 5 true seed).map (·.1) =
      some fiveEntries := by
    decide +kernel
  have hwords : Text.words fiveEntries =
      ["Далеко-далеко", "за", "словесными", "горами", "в", "стране."] := by
        decide +kernel
  refine ⟨hparagraph, hwords, fun h => ?_⟩
  obtain ⟨⟨text, s'⟩, hs', htext⟩ := Option.map_eq_some_iff.1 hparagraph
  obtain rfl : text = fiveEntries := htext
  have hfive := h fiveEntries s' hs'
  rw [hwords] at hfive
  cases hfive

end AskingWitness

end Scaffold.Lorem

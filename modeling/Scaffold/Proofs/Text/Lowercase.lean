import Scaffold.Text.Case
/-!
Lower case is final.  The images of a run of the case table are lower-case
characters: no run has a code point that another run leads to.  So what is
lower-cased stays the same from then on.  Main statement: `lowercase_lowercase`.
-/
namespace Scaffold.Text

/-- The code points that the images of a run begin and end with. -/
def CaseRun.lowest (r : CaseRun) : Nat := (r.first + r.delta).toNat

def CaseRun.highest (r : CaseRun) : Nat := (r.last + r.delta).toNat

/-- No image of the first run is a code point of the second one: the images
begin behind it or end in front of it, or they are those between its code
points. -/
def CaseRun.misses (r q : CaseRun) : Bool :=
  Nat.blt q.last r.lowest || Nat.blt r.highest q.first ||
    ((r.stride == 2 || r.first == r.last) && q.stride == 2 &&
      (r.lowest + q.first) % 2 == 1)

/-- The images of a run are characters apart from ASCII, the capital sigma and
the dotted capital, or there is only the Latin letter of the Kelvin sign. -/
def CaseRun.landsLow (r : CaseRun) : Bool :=
  0 ≤ r.first + r.delta &&
    ((0x3A3 < r.lowest && r.highest < 0xD800) ||
      (0xDFFF < r.lowest && r.highest < 0x110000) || (0x130 < r.lowest &&
        r.highest < 0x3A3) || (0x7F < r.lowest && r.highest < 0x130) ||
      (r.first == r.last && r.lowest == 0x6B))

theorem misses_lowerRuns :
    (lowerRuns.all fun r => lowerRuns.all r.misses) = true := by
  decide +kernel

theorem landsLow_lowerRuns : ∀ r ∈ lowerRuns, r.landsLow = true := by
  decide +kernel

theorem toLower_ascii :
    ∀ n < 0x80, (Char.ofNat n).toLower.toNat < 0x80 ∧
    (Char.ofNat n).toLower.toLower = (Char.ofNat n).toLower ∧
    (Char.ofNat n).toLower ≠ 'Σ' := by
  decide +kernel

/-- A character that is its own lower-case form wherever it stands. -/
def IsLower (c : Char) : Prop := lowerChar c = [c] ∧ c ≠ 'Σ'

theorem isLower_ascii {c : Char} (h : c.toNat < 0x80) : IsLower c.toLower := by
  obtain ⟨hascii, hfixed, hsigma⟩ := toLower_ascii c.toNat h
  rw [Char.ofNat_toNat] at hascii hfixed hsigma
  exact ⟨by rw [lowerChar, if_pos hascii, hfixed], hsigma⟩

theorem covers_eq_false_of_misses {r q : CaseRun} (h : r.misses q = true)
    (hr : 0 ≤ r.first + r.delta) {n m : Nat} (hn : r.covers n = true)
    (hm : (n + r.delta : Int) = m) : q.covers m = false := by
  simp only [CaseRun.misses, CaseRun.lowest, CaseRun.highest, Bool.or_eq_true,
    Bool.and_eq_true, Nat.blt_eq, beq_iff_eq] at h
  simp only [CaseRun.covers, Bool.and_eq_true, decide_eq_true_eq, beq_iff_eq]
    at hn
  simp only [CaseRun.covers, Bool.and_eq_false_iff, decide_eq_false_iff_not]
  rcases h with (hbehind | hfront) | ⟨⟨hstep, hstride⟩, hodd⟩
  · left
    right
    omega
  · left
    left
    omega
  · -- every second code point of one run or the other, and never the same ones
    by_cases hlow : q.first ≤ m
    · right
      rw [hstride, beq_eq_false_iff_ne]
      rcases hstep with hstep | hstep
      · rw [hstep] at hn
        omega
      · omega
    · left
      left
      exact hlow

theorem isLower_image {r : CaseRun} (hr : r ∈ lowerRuns) {n : Nat}
    (hn : r.covers n = true) : IsLower (r.image n) := by
  have hlands := landsLow_lowerRuns r hr
  have hspan := hn
  simp only [CaseRun.covers, Bool.and_eq_true, decide_eq_true_eq] at hspan
  simp only [CaseRun.landsLow, Bool.or_eq_true, Bool.and_eq_true,
    decide_eq_true_eq, beq_iff_eq] at hlands
  simp only [CaseRun.lowest, CaseRun.highest] at hlands
  obtain ⟨m, hm⟩ : ∃ m : Nat, (n + r.delta : Int) = m :=
    ⟨(n + r.delta).toNat, by omega⟩
  have hvalid : m.isValidChar := by
    rw [Nat.isValidChar]
    omega
  have himage : r.image n = Char.ofNat m := by
    rw [CaseRun.image, hm, Int.toNat_natCast]
  have hcode : (Char.ofNat m).toNat = m := by
    rw [Char.ofNat, dif_pos hvalid]
    rfl
  rw [himage]
  by_cases hascii : m < 0x80
  · have hkelvin : m = 0x6B := by omega
    rw [hkelvin]
    exact isLower_ascii (c := 'k') (by decide)
  · have hdotted : Char.ofNat m ≠ 'İ' := fun heq => by
      have hdot : 'İ'.toNat = 0x130 := rfl
      rw [heq, hdot] at hcode
      omega
    have hsigma : Char.ofNat m ≠ 'Σ' := fun heq => by
      have hcapital : 'Σ'.toNat = 0x3A3 := rfl
      rw [heq, hcapital] at hcode
      omega
    have hnone : lowerRuns.find? (·.covers m) = none := by
      rw [List.find?_eq_none]
      intro q hq
      have hmisses : r.misses q = true :=
        List.all_eq_true.1 (List.all_eq_true.1 misses_lowerRuns r hr) q hq
      simp [covers_eq_false_of_misses hmisses hlands.1 hn hm]
    refine ⟨?_, hsigma⟩
    rw [lowerChar, hcode, if_neg hascii, if_neg hdotted, hnone]

theorem isLower_lowerChar {c : Char} (hc : c ≠ 'Σ') :
    ∀ d ∈ lowerChar c, IsLower d := by
  by_cases hascii : c.toNat < 0x80
  · rw [lowerChar, if_pos hascii]
    simpa using isLower_ascii hascii
  · by_cases hdotted : c = 'İ'
    · have hmark : IsLower (Char.ofNat 0x307) := ⟨by decide +kernel, by decide⟩
      have hletter : IsLower 'i' := isLower_ascii (c := 'i') (by decide)
      rw [lowerChar, if_neg hascii, if_pos hdotted]
      simp [hmark, hletter]
    · cases hfound : lowerRuns.find? (·.covers c.toNat) with
      | none =>
          have hown : lowerChar c = [c] := by
            rw [lowerChar, if_neg hascii, if_neg hdotted, hfound]
          have hsame : IsLower c := ⟨hown, hc⟩
          rw [hown]
          simpa using hsame
      | some run =>
          have hcovers : run.covers c.toNat = true := by
            simpa using List.find?_some hfound
          rw [lowerChar, if_neg hascii, if_neg hdotted, hfound]
          simpa using isLower_image (List.mem_of_find?_eq_some hfound) hcovers

theorem isLower_lowerFrom (before cs : List Char) :
    ∀ d ∈ lowerFrom before cs, IsLower d := by
  induction cs generalizing before with
  | nil => simp [lowerFrom]
  | cons c cs ih =>
      rw [lowerFrom, List.forall_mem_append]
      refine ⟨?_, ih (c :: before)⟩
      split
      · have hfinal : IsLower 'ς' := ⟨by decide +kernel, by decide⟩
        have hsmall : IsLower 'σ' := ⟨by decide +kernel, by decide⟩
        split <;> simp [hfinal, hsmall]
      · next hc => exact isLower_lowerChar hc

theorem lowerFrom_of_isLower (before : List Char) {cs : List Char}
    (h : ∀ c ∈ cs, IsLower c) : lowerFrom before cs = cs := by
  induction cs generalizing before with
  | nil => rfl
  | cons c cs ih =>
      obtain ⟨⟨hown, hsigma⟩, hrest⟩ := List.forall_mem_cons.1 h
      rw [lowerFrom, if_neg hsigma, hown, ih _ hrest]
      rfl

/-- What is lower case stays as it is. -/
theorem lowercase_lowercase (s : String) :
    lowercase (lowercase s) = lowercase s := by
  rw [lowercase, lowercase, String.toList_ofList,
    lowerFrom_of_isLower [] (isLower_lowerFrom [] s.toList)]

/-! ### Letter case -/

/-- Whether two texts are the same but for letter case. -/
def sameIgnoringCase (s t : String) : Bool := lowercase s == lowercase t

def isLowercase (s : String) : Bool := lowercase s == s

theorem sameIgnoringCase_iff {s t : String} :
    sameIgnoringCase s t = true ↔ lowercase s = lowercase t := beq_iff_eq

/-- A text is the lower-case form of another one if it is in lower case, and the
same but for that. -/
theorem eq_lowercase_iff {s t : String} :
    s = lowercase t ↔ isLowercase s = true ∧ sameIgnoringCase s t = true := by
  rw [isLowercase, sameIgnoringCase_iff, beq_iff_eq]
  constructor
  · rintro rfl
    exact ⟨lowercase_lowercase t, lowercase_lowercase t⟩
  · rintro ⟨hlow, hsame⟩
    rw [← hlow, hsame]

def IsAscii (s : String) : Prop := ∀ c ∈ s.toList, c.toNat < 0x80

theorem isAscii_iff {s : String} :
    s.toList.all (·.toNat < 0x80) = true ↔ IsAscii s := by
  simp [IsAscii]

instance (s : String) : Decidable (IsAscii s) := decidable_of_iff _ isAscii_iff

theorem lowerFrom_of_ascii (before : List Char) {cs : List Char}
    (h : ∀ c ∈ cs, c.toNat < 0x80) :
    lowerFrom before cs = cs.map Char.toLower := by
  induction cs generalizing before with
  | nil => rfl
  | cons c cs ih =>
      obtain ⟨hc, hrest⟩ := List.forall_mem_cons.1 h
      have hsigma : c ≠ 'Σ' := by
        rintro rfl
        exact absurd hc (by decide)
      rw [lowerFrom, if_neg hsigma, lowerChar, if_pos hc, ih _ hrest]
      rfl

theorem toList_lowercase {s : String} (h : IsAscii s) :
    (lowercase s).toList = s.toList.map Char.toLower := by
  rw [lowercase, String.toList_ofList, lowerFrom_of_ascii [] h]

/-- For ASCII texts only the case of ASCII letters counts. -/
theorem sameIgnoringCase_of_isAscii {s t : String} (hs : IsAscii s)
    (ht : IsAscii t) : sameIgnoringCase s t = equalIgnoringAsciiCase s t := by
  rw [Bool.eq_iff_iff, sameIgnoringCase_iff, equalIgnoringAsciiCase, beq_iff_eq,
    ← String.toList_inj, toList_lowercase hs, toList_lowercase ht]

end Scaffold.Text

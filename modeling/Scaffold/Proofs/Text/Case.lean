import Scaffold.Options
import Scaffold.Text.Lines
/-!
Letter case and lines.  No character has a line break in its lower-case or
upper-case form, unless it is one, so a text of one line is one line in any
letter case.  Main statement: `hasBreak_apply`.
-/
namespace Scaffold.Text

theorem isBreak_ofNat {n : Nat} (h : 13 < n) :
    isBreak (Char.ofNat n) = false := by
  by_cases hvalid : n.isValidChar
  · have hcode : (Char.ofNat n).toNat = n := by
      rw [Char.ofNat, dif_pos hvalid]
      rfl
    have hreturn : Char.ofNat n ≠ '\r' := fun heq => by
      rw [heq] at hcode
      have hcr : '\r'.toNat = 13 := rfl
      omega
    have hfeed : Char.ofNat n ≠ '\n' := fun heq => by
      rw [heq] at hcode
      have hlf : '\n'.toNat = 10 := rfl
      omega
    rw [isBreak, beq_eq_false_iff_ne.2 hreturn, beq_eq_false_iff_ne.2 hfeed]
    rfl
  · rw [Char.ofNat, dif_neg hvalid]
    rfl

theorem isBreak_image {run : CaseRun} (hrun : 13 < run.first + run.delta)
    {n : Nat} (h : run.covers n = true) : isBreak (run.image n) = false := by
  simp only [CaseRun.covers, Bool.and_eq_true, decide_eq_true_eq] at h
  rw [CaseRun.image]
  apply isBreak_ofNat
  omega

theorem first_lowerRuns : ∀ run ∈ lowerRuns, 13 < run.first + run.delta := by
  decide +kernel

theorem first_upperRuns : ∀ run ∈ upperRuns, 13 < run.first + run.delta := by
  decide +kernel

theorem forms_upperExpansions :
    ∀ entry ∈ upperExpansions, ∀ n ∈ entry.2, 13 < n := by
  decide +kernel

theorem isBreak_ascii :
    ∀ n < 0x80, isBreak (Char.ofNat n) = false →
    isBreak (Char.ofNat n).toLower = false ∧
    isBreak (Char.ofNat n).toUpper = false := by
  decide +kernel

variable {c : Char}

theorem isBreak_lowerChar (h : isBreak c = false) :
    ∀ d ∈ lowerChar c, isBreak d = false := by
  have hascii := isBreak_ascii c.toNat
  rw [Char.ofNat_toNat] at hascii
  rw [lowerChar]
  by_cases hsmall : c.toNat < 0x80
  · rw [if_pos hsmall]
    simpa using (hascii hsmall h).1
  · rw [if_neg hsmall]
    by_cases hdotted : c = 'İ'
    · have hdot : isBreak (Char.ofNat 0x307) = false :=
        isBreak_ofNat (by decide)
      have hletter : isBreak 'i' = false := rfl
      rw [if_pos hdotted]
      simp [hdot, hletter]
    · rw [if_neg hdotted]
      cases hfound : lowerRuns.find? (·.covers c.toNat) with
      | none => simpa using h
      | some run =>
          have hcovers : run.covers c.toNat = true := by
            simpa using List.find?_some hfound
          simpa using isBreak_image
            (first_lowerRuns run (List.mem_of_find?_eq_some hfound)) hcovers

theorem isBreak_upperChar (h : isBreak c = false) :
    ∀ d ∈ upperChar c, isBreak d = false := by
  have hascii := isBreak_ascii c.toNat
  rw [Char.ofNat_toNat] at hascii
  rw [upperChar]
  split
  · next hsmall => simpa using (hascii hsmall h).2
  · split
    · next forms hforms =>
        intro d hd
        obtain ⟨n, hn, rfl⟩ := List.mem_map.1 hd
        obtain ⟨front, rest, htable, -⟩ := List.lookup_eq_some_iff.1 hforms
        exact isBreak_ofNat
          (forms_upperExpansions (c.toNat, forms) (by simp [htable]) n hn)
    · split
      · next run hrun =>
          have hcovers : run.covers c.toNat = true := by
            simpa using List.find?_some hrun
          simpa using isBreak_image
            (first_upperRuns run (List.mem_of_find?_eq_some hrun)) hcovers
      · simpa using h

theorem isBreak_lowerFrom (before : List Char) {cs : List Char}
    (h : ∀ c ∈ cs, isBreak c = false) :
    ∀ d ∈ lowerFrom before cs, isBreak d = false := by
  induction cs generalizing before with
  | nil => simp [lowerFrom]
  | cons c cs ih =>
      rw [List.forall_mem_cons] at h
      have hrest := ih (c :: before) h.2
      rw [lowerFrom, List.forall_mem_append]
      refine ⟨?_, hrest⟩
      split
      · have hsigma : isBreak 'ς' = false ∧ isBreak 'σ' = false := ⟨rfl, rfl⟩
        split <;> simp [hsigma]
      · exact isBreak_lowerChar h.1

/-- A text of one line is one line in any letter case. -/
theorem hasBreak_apply (k : LetterCase) {s : String} (h : hasBreak s = false) :
    hasBreak (k.apply s) = false := by
  have hbreaks : ∀ c ∈ s.toList, isBreak c = false := by
    simpa [hasBreak] using h
  cases k with
  | asIs => exact h
  | lower =>
      simpa [hasBreak, LetterCase.apply, lowercase]
        using isBreak_lowerFrom [] hbreaks
  | upper =>
      have hupper : ∀ c ∈ s.toList, ∀ d ∈ upperChar c, isBreak d = false :=
        fun c hc => isBreak_upperChar (hbreaks c hc)
      simpa [hasBreak, LetterCase.apply, uppercase] using hupper

end Scaffold.Text

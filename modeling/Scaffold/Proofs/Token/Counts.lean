import Mathlib
import Scaffold.Token.Lexer
/-!
Counts at the head of a text.  Where a text begins, blanks and repeaters still
come in front of the first literal, and a repeater is written back with the
digits of its count, not with those of the source.  So a text is read back as it
was exactly if the counts at its head were written without zeros in front and
are no larger than a word.  Main statement: `reread_eq_self_iff`.
-/
namespace Scaffold

namespace Numeral

/-- Digits as a count is written: no zero in front of others, and a value that
fits a word. -/
def IsCanonical (ds : List Char) : Prop :=
  (ds.head? = some '0' → ds = ['0']) ∧ digitsValue ds ≤ wordMax

theorem digitsValue_append_singleton (ds : List Char) (d : Char) :
    digitsValue (ds ++ [d]) = 10 * digitsValue ds + (d.toNat - '0'.toNat) := by
  rw [digitsValue, List.foldl_append]
  rfl

theorem digitsValue_digits (n : Nat) : digitsValue (digits n) = n := by
  have hread := Nat.ofDigitChars_ten_toDigits (n := n)
  rwa [Nat.ofDigitChars_eq_foldl] at hread

/-- A digit is the one that its value is written with. -/
theorem digitChar_of_isDigit {d : Char} (hd : d.isDigit = true) :
    Nat.digitChar (d.toNat - '0'.toNat) = d ∧ d.toNat - '0'.toNat < 10 := by
  have hrange : 48 ≤ d.toNat ∧ d.toNat ≤ 57 := by
    simpa [Char.isDigit, UInt32.le_iff_toNat_le] using hd
  have hzero : '0'.toNat = 48 := rfl
  have hvalue : d.toNat - '0'.toNat < 10 := by omega
  refine ⟨Char.toNat_inj.1 ?_, hvalue⟩
  rw [Nat.toNat_digitChar_of_lt_ten hvalue]
  omega

/-- Only zero is written with a zero in front. -/
theorem eq_zero_of_head?_digits {n : Nat} (h : (digits n).head? = some '0') :
    n = 0 := by
  induction n using Nat.strongRecOn with
  | ind n ih =>
    rw [digits, Nat.toDigits_eq_if (by decide)] at h
    split at h
    · next hlt =>
        have hchar : Nat.digitChar n = '0' := Option.some.inj h
        have hvalue := Nat.toNat_digitChar_of_lt_ten hlt
        rw [hchar] at hvalue
        have hzero : '0'.toNat = 48 := rfl
        omega
    · next hlarge =>
        rw [List.head?_append_of_ne_nil _ Nat.toDigits_ne_nil] at h
        have hshort := ih (n / 10) (by omega) h
        omega

/-- Digits without a zero in front of others are those that their value is
written with. -/
theorem digits_digitsValue {ds : List Char} (hne : ds ≠ [])
    (hds : ∀ d ∈ ds, d.isDigit = true)
    (hzero : ds.head? = some '0' → ds = ['0']) :
    digits (digitsValue ds) = ds := by
  induction ds using List.reverseRecOn with
  | nil => exact absurd rfl hne
  | append_singleton ds d ih =>
      obtain ⟨hd, hlt⟩ := digitChar_of_isDigit (hds d (by simp))
      rw [digitsValue_append_singleton]
      cases ds with
      | nil =>
          have hvalue : 10 * digitsValue [] + (d.toNat - '0'.toNat) =
              d.toNat - '0'.toNat :=
            Nat.zero_add _
          rw [hvalue, digits, Nat.toDigits_of_lt_base hlt, hd]
          rfl
      | cons c cs =>
          have hhead : c ≠ '0' := by
            rintro rfl
            have hone := congrArg List.length (hzero rfl)
            simp at hone
          have hfront : digits (digitsValue (c :: cs)) = c :: cs := by
            apply ih (List.cons_ne_nil c cs)
            · exact fun x hx => hds x (List.mem_append_left [d] hx)
            · exact fun h => absurd (Option.some.inj h) hhead
          have hpos : 0 < digitsValue (c :: cs) := by
            rw [Nat.pos_iff_ne_zero]
            intro hnone
            rw [hnone] at hfront
            exact hhead (List.cons.inj hfront).1.symm
          have hlast :=
            Nat.toDigits_append_toDigits (by decide : 1 < 10) hpos hlt
          rw [Nat.toDigits_of_lt_base hlt, hd] at hlast
          rw [digits, ← hlast]
          exact congrArg (· ++ [d]) hfront

/-- The digits of a count are written back as they were exactly if they are
canonical. -/
theorem digits_ofDigits_eq_iff {ds : List Char} (hne : ds ≠ [])
    (hds : ∀ d ∈ ds, d.isDigit = true) :
    digits (ofDigits ds) = ds ↔ IsCanonical ds := by
  constructor
  · intro h
    have hvalue : digitsValue ds = ofDigits ds := by
      conv_lhs => rw [← h]
      exact digitsValue_digits _
    refine ⟨?_, hvalue ▸ ofDigits_le ds⟩
    intro hhead
    rw [← h] at hhead
    rw [← h, eq_zero_of_head?_digits hhead]
    rfl
  · rintro ⟨hzero, hle⟩
    rw [ofDigits, saturate_of_le hle]
    exact digits_digitsValue hne hds hzero

end Numeral

namespace Lexer

/-- The digits behind a `*` as they are written back. -/
def rewritten (ds : List Char) : List Char :=
  if ds.isEmpty then [] else Numeral.digits (Numeral.ofDigits ds)

/-- A text as it is read back: from its head on, as long as there are only
blanks and repeaters, every count is written anew. -/
def reread : List Char → List Char
  | [] => []
  | c :: cs =>
    if isSpace c then c :: reread cs
    else if c == '*' then
      '*' :: (rewritten (cs.takeWhile Char.isDigit) ++
        reread (cs.dropWhile Char.isDigit))
    else c :: cs
termination_by cs => cs.length
decreasing_by
  · simp
  · have := (List.dropWhile_suffix Char.isDigit (l := cs)).length_le
    simp only [List.length_cons]
    omega

/-- The counts of the repeaters at the head of a text, each as the digits it is
written with. -/
def headCounts : List Char → List (List Char)
  | [] => []
  | c :: cs =>
    if isSpace c then headCounts cs
    else if c == '*' then
      cs.takeWhile Char.isDigit :: headCounts (cs.dropWhile Char.isDigit)
    else []
termination_by cs => cs.length
decreasing_by
  · simp
  · have := (List.dropWhile_suffix Char.isDigit (l := cs)).length_le
    simp only [List.length_cons]
    omega

theorem isDigit_of_mem_rewritten {ds : List Char} :
    ∀ d ∈ rewritten ds, d.isDigit = true := by
  intro d hd
  rw [rewritten] at hd
  split at hd
  · cases hd
  · exact Nat.isDigit_of_mem_toDigits (by decide) (by decide) hd

theorem rewritten_eq_self_iff {ds : List Char}
    (hds : ∀ d ∈ ds, d.isDigit = true) :
    rewritten ds = ds ↔ Numeral.IsCanonical ds := by
  cases ds with
  | nil => simp [rewritten, Numeral.IsCanonical, Numeral.digitsValue]
  | cons d ds =>
      exact Numeral.digits_ofDigits_eq_iff (List.cons_ne_nil d ds) hds

theorem head?_reread (cs : List Char) : (reread cs).head? = cs.head? := by
  rw [reread.eq_def]
  split
  · rfl
  · next c cs =>
      split
      · rfl
      · split
        · next hstar => simp [beq_iff_eq.1 hstar]
        · rfl

theorem reread_ne_nil {cs : List Char} (h : cs ≠ []) : reread cs ≠ [] := by
  rwa [ne_eq, ← List.head?_eq_none_iff, head?_reread, List.head?_eq_none_iff]

/-- Digits in front of something that begins with none are all that `takeWhile`
finds. -/
theorem takeWhile_isDigit_append {ds rest : List Char}
    (hds : ∀ d ∈ ds, d.isDigit = true)
    (hrest : ∀ c ∈ rest.head?, c.isDigit = false) :
    (ds ++ rest).takeWhile Char.isDigit = ds := by
  rw [List.takeWhile_append_of_pos hds]
  cases rest with
  | nil => simp
  | cons c rest => simp [hrest c rfl]

/-- A text is read back as it was exactly if the counts at its head are
canonical. -/
theorem reread_eq_self_iff (cs : List Char) :
    reread cs = cs ↔ ∀ ds ∈ headCounts cs, Numeral.IsCanonical ds := by
  fun_induction reread cs with
  | case1 => simp [headCounts]
  | case2 c cs hspace ih =>
      rw [headCounts, if_pos hspace, List.cons_inj_right, ih]
  | case3 c cs hspace hstar ih =>
      obtain rfl := beq_iff_eq.1 hstar
      have hds : ∀ d ∈ cs.takeWhile Char.isDigit, d.isDigit = true :=
        fun d hd => List.mem_takeWhile_imp hd
      have hrest : ∀ c ∈ (cs.dropWhile Char.isDigit).head?,
          c.isDigit = false := by
        intro c hc
        have hstop := List.head?_dropWhile_not Char.isDigit cs
        rw [Option.mem_def.1 hc] at hstop
        simpa using hstop
      have hrest' : ∀ c ∈ (reread (cs.dropWhile Char.isDigit)).head?,
          c.isDigit = false := by
        rwa [head?_reread]
      rw [headCounts, if_neg hspace, if_pos hstar, List.forall_mem_cons, ← ih,
        ← rewritten_eq_self_iff hds, List.cons_inj_right]
      constructor
      -- The digits up to the next other character are the same on both sides,
      -- hence so is the rest.
      · intro h
        have hsplit : rewritten (cs.takeWhile Char.isDigit) ++
            reread (cs.dropWhile Char.isDigit) =
            cs.takeWhile Char.isDigit ++ cs.dropWhile Char.isDigit := by
          rw [h, List.takeWhile_append_dropWhile]
        have hfront := congrArg (List.takeWhile Char.isDigit) hsplit
        rw [takeWhile_isDigit_append isDigit_of_mem_rewritten hrest',
          takeWhile_isDigit_append hds hrest] at hfront
        rw [hfront] at hsplit
        exact ⟨hfront, List.append_cancel_left hsplit⟩
      · rintro ⟨hfront, hbehind⟩
        rw [hfront, hbehind, List.takeWhile_append_dropWhile]
  | case4 c cs hspace hstar => simp [headCounts, hspace, hstar]

/-- Blanks at the head stay as they are. -/
theorem reread_append_of_isSpace {run : List Char}
    (hrun : ∀ c ∈ run, isSpace c = true) (cs : List Char) :
    reread (run ++ cs) = run ++ reread cs := by
  induction run with
  | nil => rfl
  | cons c run ih =>
      obtain ⟨hc, hrun⟩ := List.forall_mem_cons.1 hrun
      rw [List.cons_append, reread, if_pos hc, ih hrun, List.cons_append]

end Lexer

end Scaffold

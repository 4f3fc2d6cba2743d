import Scaffold.Text.Lines
/-!
How many lines a text has: always one, and no more than that if it has no line
break.  No line has a break.
-/
namespace Scaffold.Text

theorem lineChars_of_all {cs : List Char} (h : cs.all (!isBreak ·) = true) :
    lineChars cs = [cs] := by
  induction cs with
  | nil => rfl
  | cons c cs ih =>
    rw [List.all_cons, Bool.and_eq_true, Bool.not_eq_true', isBreak,
      Bool.or_eq_false_iff, beq_eq_false_iff_ne, beq_eq_false_iff_ne] at h
    obtain ⟨⟨hreturn, hfeed⟩, hrest⟩ := h
    rw [lineChars, ih hrest]
    · exact fun _ hc _ => hreturn hc
    · exact hreturn
    · exact hfeed

theorem hasBreak_eq_false_iff {s : String} :
    hasBreak s = false ↔ s.toList.all (!isBreak ·) = true := by
  simp [hasBreak, List.all_eq_not_any_not]

theorem hasBreak_append (s t : String) :
    hasBreak (s ++ t) = (hasBreak s || hasBreak t) := by
  rw [hasBreak, String.toList_append, List.any_append, hasBreak, hasBreak]

theorem lines_of_hasBreak_eq_false {s : String} (h : hasBreak s = false) :
    lines s = [s] := by
  rw [lines, lineChars_of_all (hasBreak_eq_false_iff.1 h), List.map_singleton,
    String.ofList_toList]

theorem lineChars_ne_nil (cs : List Char) : lineChars cs ≠ [] := by
  fun_cases lineChars cs <;> simp_all

theorem all_of_mem_lineChars {cs line : List Char} (h : line ∈ lineChars cs) :
    line.all (!isBreak ·) = true := by
  fun_induction lineChars cs generalizing line with
  | case1 =>
    rw [List.mem_singleton.1 h]
    rfl
  | case2 cs ih | case3 cs _ ih | case4 cs ih =>
    rcases List.mem_cons.1 h with rfl | hrest
    · rfl
    · exact ih hrest
  | case5 c cs _ _ _ hnone => exact absurd hnone (lineChars_ne_nil cs)
  | case6 c cs _ hreturn hfeed first lines hlines ih =>
    rw [hlines] at ih
    have hbreak : isBreak c = false := by
      rw [isBreak, beq_eq_false_iff_ne.2 hreturn, beq_eq_false_iff_ne.2 hfeed]
      rfl
    rcases List.mem_cons.1 h with rfl | hrest
    · rw [List.all_cons, hbreak, ih List.mem_cons_self]
      rfl
    · exact ih (List.mem_cons_of_mem first hrest)

theorem hasBreak_of_mem_lines {s line : String} (h : line ∈ lines s) :
    hasBreak line = false := by
  obtain ⟨cs, hcs, rfl⟩ := List.mem_map.1 h
  rw [hasBreak_eq_false_iff, String.toList_ofList]
  exact all_of_mem_lineChars hcs

theorem lines_ne_nil (s : String) : lines s ≠ [] := by
  rw [lines, ne_eq, List.map_eq_nil_iff]
  exact lineChars_ne_nil s.toList

theorem all_of_length_lineChars {cs : List Char}
    (h : (lineChars cs).length ≤ 1) : cs.all (!isBreak ·) = true := by
  fun_induction lineChars cs with
  | case1 => rfl
  | case2 cs => exact absurd (by simpa using h) (lineChars_ne_nil cs)
  | case3 cs => exact absurd (by simpa using h) (lineChars_ne_nil cs)
  | case4 cs => exact absurd (by simpa using h) (lineChars_ne_nil cs)
  | case5 c cs _ _ _ hnone => exact absurd hnone (lineChars_ne_nil cs)
  | case6 c cs hpair hreturn hfeed line lines hlines ih =>
    have hrest := ih (by rw [hlines]; exact h)
    have hbreak : isBreak c = false := by
      rw [isBreak, beq_eq_false_iff_ne.2 hreturn, beq_eq_false_iff_ne.2 hfeed]
      rfl
    rw [List.all_cons, hbreak, hrest]
    rfl

theorem hasBreak_eq_false_of_length_lines {s : String}
    (h : (lines s).length ≤ 1) : hasBreak s = false := by
  rw [lines, List.length_map] at h
  exact hasBreak_eq_false_iff.2 (all_of_length_lineChars h)

end Scaffold.Text

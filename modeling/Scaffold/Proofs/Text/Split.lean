import Scaffold.Text.Split
/-!
Cutting undoes joining.  A text that was joined by a separator falls apart into
the parts of what was joined, and so into these texts themselves if the
separator is in none of them; and the parts of a text can be joined again.
-/
namespace Scaffold.Text

variable {cut : Char → Bool}

theorem splitChars_of_forall {cs : List Char} (h : ∀ c ∈ cs, cut c = false) :
    splitChars cut cs = [cs] := by
  induction cs with
  | nil => rfl
  | cons c cs ih =>
      have hrest : ∀ d ∈ cs, cut d = false :=
        fun d hd => h d (List.mem_cons_of_mem c hd)
      rw [splitChars, ih hrest, h c List.mem_cons_self]
      rfl

theorem splitChars_append_cons {c : Char} (hc : cut c = true)
    (cs ds : List Char) :
    splitChars cut (cs ++ c :: ds) = splitChars cut cs ++
      splitChars cut ds := by
  induction cs with
  | nil =>
      obtain ⟨part, parts, hparts⟩ :=
        List.exists_cons_of_ne_nil (splitChars_ne_nil cut ds)
      rw [List.nil_append, splitChars, splitChars, hparts, hc]
      rfl
  | cons d cs ih =>
      obtain ⟨part, parts, hparts⟩ :=
        List.exists_cons_of_ne_nil (splitChars_ne_nil cut cs)
      rw [List.cons_append, splitChars, ih, splitChars, hparts]
      cases cut d <;> rfl

/-- No part has a character that texts are cut at. -/
theorem cut_eq_false_of_mem_splitChars {cs part : List Char}
    (hpart : part ∈ splitChars cut cs) : ∀ c ∈ part, cut c = false := by
  induction cs generalizing part with
  | nil =>
      obtain rfl : part = [] := by simpa [splitChars] using hpart
      simp
  | cons c cs ih =>
      obtain ⟨first, rest, hsplit⟩ :=
        List.exists_cons_of_ne_nil (splitChars_ne_nil cut cs)
      rw [hsplit] at ih
      rw [splitChars, hsplit] at hpart
      have hfirst : ∀ c ∈ first, cut c = false := ih List.mem_cons_self
      have hrest : ∀ p ∈ rest, ∀ d ∈ p, cut d = false := fun p hp =>
        ih (List.mem_cons_of_mem first hp)
      by_cases hc : cut c = true
      · rw [hc] at hpart
        simp only [if_true, List.mem_cons] at hpart
        rcases hpart with rfl | rfl | hpart
        · simp
        · exact hfirst
        · exact hrest part hpart
      · rw [Bool.not_eq_true] at hc
        simp only [hc, Bool.false_eq_true, if_false, List.mem_cons] at hpart
        rcases hpart with rfl | hpart
        · intro d hd
          rcases List.mem_cons.1 hd with rfl | hd
          · exact hc
          · exact hfirst d hd
        · exact hrest part hpart

theorem splitAt_of_not_mem {s : String} {separator : Char}
    (h : separator ∉ s.toList) : splitAt s separator = [s] := by
  have hcut : ∀ c ∈ s.toList, (c == separator) = false := by
    intro c hc
    exact beq_eq_false_iff_ne.2 fun heq => h (heq ▸ hc)
  rw [splitAt, splitChars_of_forall hcut, List.map_singleton,
    String.ofList_toList]

theorem not_mem_of_mem_splitAt {s part : String} {separator : Char}
    (hpart : part ∈ splitAt s separator) : separator ∉ part.toList := by
  obtain ⟨cs, hcs, rfl⟩ := List.mem_map.1 hpart
  intro hmem
  rw [String.toList_ofList] at hmem
  simpa using cut_eq_false_of_mem_splitChars hcs separator hmem

theorem splitAt_append (s t : String) (separator : Char) :
    splitAt (s ++ String.singleton separator ++ t) separator =
      splitAt s separator ++ splitAt t separator := by
  have hparts := @splitChars_append_cons (· == separator) separator
    (beq_self_eq_true separator) s.toList t.toList
  rw [splitAt, splitAt, splitAt, ← List.map_append, ← hparts]
  simp

theorem join_cons_cons (separator s t : String) (ss : List String) :
    join separator (s :: t :: ss) = s ++ separator ++
      join separator (t :: ss) := rfl

/-- The first of joined texts may as well stand in front of them. -/
theorem join_cons (separator s : String) (ss : List String) :
    join separator (s :: ss) = s ++ join separator ("" :: ss) := by
  cases ss with
  | nil => simp [join]
  | cons t ss => simp [join, String.append_assoc]

theorem join_concat {ss : List String} (hne : ss ≠ []) (separator s : String) :
    join separator (ss ++ [s]) = join separator ss ++ separator ++ s := by
  induction ss with
  | nil => exact absurd rfl hne
  | cons first ss ih =>
      cases ss with
      | nil => rfl
      | cons second ss =>
          have hrest := ih (List.cons_ne_nil second ss)
          rw [List.cons_append, List.cons_append, join_cons_cons,
            ← List.cons_append, hrest, join_cons_cons]
          simp only [String.append_assoc]

/-- A joined text falls apart into the parts of the texts that were joined. -/
theorem splitAt_join {ss : List String} (hne : ss ≠ []) (separator : Char) :
    splitAt (join (String.singleton separator) ss) separator =
      ss.flatMap (splitAt · separator) := by
  induction ss with
  | nil => exact absurd rfl hne
  | cons s ss ih =>
      cases ss with
      | nil => simp [join]
      | cons t ss =>
          rw [join_cons_cons, splitAt_append, ih (List.cons_ne_nil t ss)]
          rfl

theorem splitAt_ne_nil (s : String) (separator : Char) :
    splitAt s separator ≠ [] := by
  rw [splitAt, Ne, List.map_eq_nil_iff]
  exact splitChars_ne_nil _ _

theorem join_splitChars (separator : Char) (cs : List Char) :
    join (String.singleton separator)
      ((splitChars (· == separator) cs).map String.ofList) =
      String.ofList cs := by
  induction cs with
  | nil => rfl
  | cons c cs ih =>
      obtain ⟨part, parts, hsplit⟩ :=
        List.exists_cons_of_ne_nil (splitChars_ne_nil (· == separator) cs)
      rw [hsplit, List.map_cons] at ih
      rw [splitChars, hsplit]
      dsimp only
      by_cases hc : c = separator
      · rw [if_pos (beq_iff_eq.2 hc), hc, List.map_cons, List.map_cons,
          join_cons_cons, ih]
        simp
      · rw [if_neg (mt beq_iff_eq.1 hc), List.map_cons, join_cons]
        rw [join_cons] at ih
        rw [String.ofList_cons, String.ofList_cons, String.append_assoc, ih]

/-- The parts of a text make it up again. -/
theorem join_splitAt (s : String) (separator : Char) :
    join (String.singleton separator) (splitAt s separator) = s := by
  rw [splitAt, join_splitChars, String.ofList_toList]

end Scaffold.Text

import Scaffold.Proofs.Text.Lines
/-!
Texts as lines with the breaks between them.  A carriage return with a line feed
behind it is one break, and each of the two alone is one as well.  The lines of
a text and its breaks in turn are the text again, and no other parts are, unless
a pair is taken apart.  Main statements: `cuts_lines`, `eq_lines_of_cuts`.
-/
namespace Scaffold.Text

/-- What ends a line. -/
inductive LineBreak
  | feed
  | carriage
  | carriageFeed
  deriving DecidableEq, Repr

def LineBreak.text : LineBreak → String
  | feed => "\n"
  | carriage => "\r"
  | carriageFeed => "\r\n"

/-- The line breaks among characters, in their order. -/
def charBreaks : List Char → List LineBreak
  | [] => []
  | '\r' :: '\n' :: cs => .carriageFeed :: charBreaks cs
  | '\r' :: cs => .carriage :: charBreaks cs
  | '\n' :: cs => .feed :: charBreaks cs
  | _ :: cs => charBreaks cs

def breaks (s : String) : List LineBreak := charBreaks s.toList

def weave : List String → List LineBreak → String
  | part :: parts, b :: bs => part ++ b.text ++ weave parts bs
  | part :: _, [] => part
  | [], _ => ""

/-- A text is parts without line breaks, with breaks between them. -/
structure Cuts (s : String) (parts : List String) (bs : List LineBreak) :
    Prop where
  length : parts.length = bs.length + 1
  clean : ∀ part ∈ parts, hasBreak part = false
  woven : weave parts bs = s

/-- No line feed stands behind a break that it would be one break with. -/
def LineBreak.EndsAt (b : LineBreak) (behind : String) : Prop :=
  b = .carriage → behind.toList.head? ≠ some '\n'

/-- No pair of a carriage return and a line feed is taken apart. -/
def KeepsPairs : List String → List LineBreak → Prop
  | _ :: parts, b :: bs => b.EndsAt (weave parts bs) ∧ KeepsPairs parts bs
  | _, _ => True

/-! ### The first break -/

theorem isBreak_iff {c : Char} : isBreak c = true ↔ c = '\r' ∨ c = '\n' := by
  simp [isBreak]

theorem lineChars_cons {c : Char} (hc : isBreak c = false) (cs : List Char) :
    lineChars (c :: cs) = (lineChars cs).modifyHead (c :: ·) := by
  rw [isBreak, Bool.or_eq_false_iff, beq_eq_false_iff_ne, beq_eq_false_iff_ne]
    at hc
  obtain ⟨line, lines, hlines⟩ :=
    List.exists_cons_of_ne_nil (lineChars_ne_nil cs)
  rw [lineChars, hlines]
  · rfl
  · exact fun _ heq _ => hc.1 heq
  · exact hc.1
  · exact hc.2

theorem charBreaks_cons {c : Char} (hc : isBreak c = false) (cs : List Char) :
    charBreaks (c :: cs) = charBreaks cs := by
  rw [isBreak, Bool.or_eq_false_iff, beq_eq_false_iff_ne, beq_eq_false_iff_ne]
    at hc
  rw [charBreaks]
  · exact fun _ heq _ => hc.1 heq
  · exact hc.1
  · exact hc.2

/-- Characters without a break belong to the first line. -/
theorem lineChars_append {cs : List Char} (h : ∀ c ∈ cs, isBreak c = false)
    (ds : List Char) :
    lineChars (cs ++ ds) = (lineChars ds).modifyHead (cs ++ ·) := by
  induction cs with
  | nil =>
      cases hds : lineChars ds <;> simp [hds]
  | cons c cs ih =>
      rw [List.forall_mem_cons] at h
      rw [List.cons_append, lineChars_cons h.1, ih h.2,
        List.modifyHead_modifyHead]
      rfl

theorem charBreaks_append {cs : List Char} (h : ∀ c ∈ cs, isBreak c = false)
    (ds : List Char) : charBreaks (cs ++ ds) = charBreaks ds := by
  induction cs with
  | nil => rfl
  | cons c cs ih =>
      rw [List.forall_mem_cons] at h
      rw [List.cons_append, charBreaks_cons h.1, ih h.2]

/-- A break ends a line. -/
theorem lineChars_text_append {b : LineBreak} {behind : String}
    (hb : b.EndsAt behind) :
    lineChars (b.text.toList ++ behind.toList) = [] :: lineChars behind.toList ∧
      charBreaks (b.text.toList ++ behind.toList) =
        b :: charBreaks behind.toList := by
  cases b with
  | feed => exact ⟨rfl, rfl⟩
  | carriageFeed => exact ⟨rfl, rfl⟩
  | carriage =>
      have hhead : ∀ cs, behind.toList ≠ '\n' :: cs :=
        fun cs hcs => hb rfl (by rw [hcs]; rfl)
      change lineChars ('\r' :: behind.toList) = _ ∧
        charBreaks ('\r' :: behind.toList) = _
      rw [lineChars, charBreaks]
      · exact ⟨rfl, rfl⟩
      · exact hhead
      · exact hhead

theorem hasBreak_eq_false_iff_forall {s : String} :
    hasBreak s = false ↔ ∀ c ∈ s.toList, isBreak c = false := by
  rw [hasBreak_eq_false_iff, List.all_eq_true]
  simp only [Bool.not_eq_true']

/-- The first line ends at the first break. -/
theorem lines_append {part behind : String} {b : LineBreak}
    (hpart : hasBreak part = false) (hb : b.EndsAt behind) :
    lines (part ++ b.text ++ behind) = part :: lines behind ∧
      breaks (part ++ b.text ++ behind) = b :: breaks behind := by
  have hclean := hasBreak_eq_false_iff_forall.1 hpart
  obtain ⟨hlines, hbreaks⟩ := lineChars_text_append hb
  rw [lines, lines, breaks, breaks, String.toList_append, String.toList_append,
    List.append_assoc, lineChars_append hclean, charBreaks_append hclean,
    hlines, hbreaks]
  simp

theorem breaks_of_hasBreak_eq_false {s : String} (h : hasBreak s = false) :
    breaks s = [] := by
  have hclean := charBreaks_append (hasBreak_eq_false_iff_forall.1 h) []
  rwa [List.append_nil] at hclean

/-- Characters that begin with a line break. -/
theorem exists_break {c : Char} (hc : isBreak c = true) (cs : List Char) :
    ∃ (b : LineBreak) (behind : String),
      String.ofList (c :: cs) = b.text ++ behind ∧ b.EndsAt behind := by
  have heq : ∀ {b : LineBreak} {ds : List Char}, c :: cs = b.text.toList ++ ds →
      String.ofList (c :: cs) = b.text ++ String.ofList ds := by
    intro b ds h
    rw [h, String.ofList_append, String.ofList_toList]
  rcases isBreak_iff.1 hc with rfl | rfl
  · by_cases hfeed : cs.head? = some '\n'
    · obtain ⟨ds, rfl⟩ := List.head?_eq_some_iff.1 hfeed
      exact ⟨.carriageFeed, String.ofList ds, heq rfl,
        by simp [LineBreak.EndsAt]⟩
    · exact ⟨.carriage, String.ofList cs, heq rfl,
        fun _ => by rwa [String.toList_ofList]⟩
  · exact ⟨.feed, String.ofList cs, heq rfl, by simp [LineBreak.EndsAt]⟩

/-- A text with line breaks has a first one. -/
theorem exists_first_break {s : String} (h : hasBreak s = true) :
    ∃ (part : String) (b : LineBreak) (behind : String),
      s = part ++ b.text ++ behind ∧ hasBreak part = false ∧
      b.EndsAt behind := by
  have hsplit :=
    List.takeWhile_append_dropWhile (p := (!isBreak ·)) (l := s.toList)
  cases hrest : s.toList.dropWhile (!isBreak ·) with
  | nil =>
      rw [hrest, List.append_nil] at hsplit
      have hall := List.all_takeWhile (p := (!isBreak ·)) (l := s.toList)
      rw [hsplit, ← hasBreak_eq_false_iff, h] at hall
      cases hall
  | cons c cs =>
      have hc : isBreak c = true := by
        have hhead := List.head?_dropWhile_not (!isBreak ·) s.toList
        rw [hrest] at hhead
        simpa using hhead
      obtain ⟨b, behind, htext, hb⟩ := exists_break hc cs
      refine ⟨String.ofList (s.toList.takeWhile (!isBreak ·)), b, behind,
        ?_, ?_, hb⟩
      · rw [String.append_assoc, ← htext, ← hrest, ← String.ofList_append,
          hsplit, String.ofList_toList]
      · rw [hasBreak_eq_false_iff, String.toList_ofList]
        exact List.all_takeWhile

/-- Texts line by line. -/
theorem lines_induction {motive : String → Prop}
    (line : ∀ s, hasBreak s = false → motive s)
    (append : ∀ (part : String) (b : LineBreak) (behind : String),
      hasBreak part = false → b.EndsAt behind → motive behind →
      motive (part ++ b.text ++ behind)) (s : String) : motive s := by
  induction hn : s.length using Nat.strongRecOn generalizing s with
  | ind n ih =>
      subst hn
      cases hs : hasBreak s with
      | false => exact line s hs
      | true =>
          obtain ⟨part, b, behind, rfl, hpart, hb⟩ := exists_first_break hs
          have hpos : 0 < b.text.length := by cases b <;> decide
          refine append part b behind hpart hb (ih behind.length ?_ behind rfl)
          rw [String.length_append, String.length_append]
          omega

/-! ### Lines and breaks -/

/-- The lines of a text are what its breaks stand between. -/
theorem cuts_lines (s : String) : Cuts s (lines s) (breaks s) := by
  induction s using lines_induction with
  | line s hs =>
      rw [lines_of_hasBreak_eq_false hs, breaks_of_hasBreak_eq_false hs]
      exact ⟨rfl, by simpa using hs, rfl⟩
  | append part b behind hpart hb ih =>
      obtain ⟨hlines, hbreaks⟩ := lines_append hpart hb
      rw [hlines, hbreaks]
      exact
        { length := by rw [List.length_cons, List.length_cons, ih.length]
          clean := List.forall_mem_cons.2 ⟨hpart, ih.clean⟩
          woven := by rw [weave, ih.woven] }

theorem breaks_eq_nil_iff {s : String} :
    breaks s = [] ↔ hasBreak s = false := by
  constructor
  · intro h
    have hlength := (cuts_lines s).length
    rw [h] at hlength
    exact hasBreak_eq_false_of_length_lines (Nat.le_of_eq hlength)
  · exact breaks_of_hasBreak_eq_false

theorem keepsPairs_lines (s : String) : KeepsPairs (lines s) (breaks s) := by
  induction s using lines_induction with
  | line s hs =>
      rw [lines_of_hasBreak_eq_false hs, breaks_of_hasBreak_eq_false hs]
      trivial
  | append part b behind hpart hb ih =>
      obtain ⟨hlines, hbreaks⟩ := lines_append hpart hb
      rw [hlines, hbreaks, KeepsPairs, (cuts_lines behind).woven]
      exact ⟨hb, ih⟩

/-- There is no other way to cut a text that keeps pairs. -/
theorem eq_lines_of_cuts {s : String} {parts : List String}
    {bs : List LineBreak} (h : Cuts s parts bs) (hpairs : KeepsPairs parts bs) :
    parts = lines s ∧ bs = breaks s := by
  induction bs generalizing s parts with
  | nil =>
      obtain ⟨part, rfl⟩ := List.length_eq_one_iff.1 h.length
      have hs : hasBreak s = false := by
        rw [← h.woven]
        exact h.clean part List.mem_cons_self
      rw [lines_of_hasBreak_eq_false hs, breaks_of_hasBreak_eq_false hs,
        ← h.woven]
      exact ⟨rfl, rfl⟩
  | cons b bs ih =>
      obtain ⟨hlength, hclean, rfl⟩ := h
      obtain ⟨part, parts, rfl⟩ := List.exists_cons_of_length_eq_add_one hlength
      rw [List.forall_mem_cons] at hclean
      rw [KeepsPairs] at hpairs
      obtain ⟨hlines, hbreaks⟩ := lines_append hclean.1 hpairs.1
      obtain ⟨hparts, hbs⟩ := ih ⟨Nat.succ.inj hlength, hclean.2, rfl⟩ hpairs.2
      rw [weave, hlines, hbreaks, ← hparts, ← hbs]
      exact ⟨rfl, rfl⟩

end Scaffold.Text

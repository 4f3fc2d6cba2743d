import Mathlib.Data.List.Infix
/-!
Comments of two forms, and the texts that may stand in them: a line comment ends
with its line, and a block comment at the first mark that closes it.  A text
between characters that do not bear on its comment ends it or not on its own
account.
-/
namespace Scaffold.Text

/-- How a language writes comments. -/
inductive CommentForm
  /-- From two slashes to the end of the line, which these characters end. -/
  | line (ends : List Char)
  /-- From a slash and an asterisk to an asterisk and a slash. -/
  | block
  deriving DecidableEq, Repr

namespace CommentForm

/-- A text that would end a comment in its midst. -/
def Ends : CommentForm → List Char → Prop
  | line ends, cs => ∃ c ∈ cs, c ∈ ends
  | block, cs => ['*', '/'] <:+: cs

/-- A text that is one whole comment and nothing else. -/
def IsComment : CommentForm → List Char → Prop
  | line ends, cs => ['/', '/', ' '] <+: cs ∧ ∀ c ∈ cs, c ∉ ends
  | block, cs =>
    ∃ body, cs = ['/', '*'] ++ body ++ ['*', '/'] ∧
      ∀ front rest, cs = front ++ ['*', '/'] ++ rest → rest = []

/-- The characters that comments end with. -/
def marks : CommentForm → List Char
  | line ends => ends
  | block => ['*', '/']

/-- A character that has no part in the end of a comment. -/
def Neutral (form : CommentForm) (c : Char) : Prop := c ∉ form.marks

instance (form : CommentForm) (cs : List Char) : Decidable (form.Ends cs) :=
  match form with
  | line ends => List.decidableBEx (· ∈ ends) cs
  | block => inferInstanceAs (Decidable (['*', '/'] <:+: cs))

instance (form : CommentForm) (c : Char) : Decidable (form.Neutral c) :=
  inferInstanceAs (Decidable (c ∉ form.marks))

variable {form : CommentForm}

theorem not_ends_nil (form : CommentForm) : ¬ form.Ends [] := by
  cases form <;> simp [Ends]

/-- A neutral character cuts a text in two parts, of which one has to end the
comment. -/
theorem ends_append_cons_iff {c : Char} (hc : form.Neutral c)
    (cs ds : List Char) :
    form.Ends (cs ++ c :: ds) ↔ form.Ends cs ∨ form.Ends ds := by
  cases form with
  | line ends =>
      have hnot : c ∉ ends := hc
      simp [Ends, or_and_right, exists_or, hnot]
  | block =>
      obtain ⟨hstar, hslash⟩ : c ≠ '*' ∧ c ≠ '/' := by
        simpa [Neutral, marks] using hc
      constructor
      · intro h
        rcases List.infix_append_iff.1 h
          with hcs | hds | ⟨front, rest, hsplit, hfront, hrest⟩
        · exact .inl hcs
        · rcases List.infix_cons_iff.1 hds with hprefix | hds
          · exact absurd (List.cons_prefix_cons.1 hprefix).1.symm hstar
          · exact .inr hds
        · cases rest with
          | nil =>
              rw [List.append_nil] at hsplit
              rw [← hsplit] at hfront
              exact .inl hfront.isInfix
          | cons d rest =>
              obtain rfl : d = c := (List.cons_prefix_cons.1 hrest).1
              have hmem : d ∈ ['*', '/'] := by simp [hsplit]
              simp [hstar, hslash] at hmem
      · rintro (hcs | hds)
        · exact hcs.trans (List.prefix_append cs _).isInfix
        · exact hds.trans ((List.suffix_cons c ds).isInfix.trans
            (List.suffix_append cs _).isInfix)

theorem ends_cons_iff {c : Char} (hc : form.Neutral c) (cs : List Char) :
    form.Ends (c :: cs) ↔ form.Ends cs := by
  have h := ends_append_cons_iff hc [] cs
  rwa [List.nil_append, or_iff_right (not_ends_nil form)] at h

theorem ends_append_left_iff {front : List Char}
    (h : ∀ c ∈ front, form.Neutral c) (cs : List Char) :
    form.Ends (front ++ cs) ↔ form.Ends cs := by
  induction front with
  | nil => rfl
  | cons c front ih =>
      rw [List.cons_append, ends_cons_iff (h c List.mem_cons_self),
        ih fun d hd => h d (List.mem_cons_of_mem c hd)]

theorem not_ends_of_neutral {cs : List Char} (h : ∀ c ∈ cs, form.Neutral c) :
    ¬ form.Ends cs := by
  have hends := ends_append_left_iff h []
  rw [List.append_nil] at hends
  exact hends.not.2 (not_ends_nil form)

theorem ends_append_right_iff {rest : List Char}
    (h : ∀ c ∈ rest, form.Neutral c) (cs : List Char) :
    form.Ends (cs ++ rest) ↔ form.Ends cs := by
  cases rest with
  | nil => rw [List.append_nil]
  | cons c rest =>
      have hrest : ¬ form.Ends rest :=
        not_ends_of_neutral fun d hd => h d (List.mem_cons_of_mem c hd)
      rw [ends_append_cons_iff (h c List.mem_cons_self), or_iff_left hrest]

/-- Two slashes make a line comment of every text that does not end it. -/
theorem isComment_line_iff {ends : List Char} (hslash : '/' ∉ ends)
    (hblank : ' ' ∉ ends) (cs : List Char) :
    (line ends).IsComment ('/' :: '/' :: ' ' :: cs) ↔
    ¬ (line ends).Ends cs := by
  simp [IsComment, Ends, hslash, hblank]

/-- Marks with blanks between them and a text make a block comment of every text
that does not end it. -/
theorem isComment_block_iff (cs : List Char) :
    block.IsComment ('/' :: '*' :: ' ' :: (cs ++ [' ', '*', '/'])) ↔
    ¬ block.Ends cs := by
  constructor
  · rintro ⟨-, -, honly⟩ ⟨front, rest, rfl⟩
    have hrest :=
      honly ('/' :: '*' :: ' ' :: front) (rest ++ [' ', '*', '/']) (by simp)
    simp at hrest
  · intro hends
    refine ⟨' ' :: (cs ++ [' ']), by simp, ?_⟩
    intro front rest hsplit
    rcases List.eq_nil_or_concat rest with hnil | ⟨init, last, rfl⟩
    · exact hnil
    -- What is left without the last character would hold the closing mark a
    -- second time.
    have hinit : '/' :: '*' :: ' ' :: (cs ++ [' ', '*']) =
        front ++ ['*', '/'] ++ init := by
      have hdrop := congrArg List.dropLast hsplit
      simpa [List.dropLast_append_cons, List.dropLast_cons_of_ne_nil]
        using hdrop
    have hclosed : block.Ends (['/', '*'] ++ ' ' :: (cs ++ ' ' :: ['*'])) :=
      ⟨front, init, hinit.symm⟩
    have hneutral : block.Neutral ' ' := by decide
    rw [ends_append_cons_iff hneutral, ends_append_cons_iff hneutral] at hclosed
    rcases hclosed with hopening | htext | hasterisk
    · exact absurd hopening (by decide)
    · exact absurd htext hends
    · exact absurd hasterisk (by decide)

end CommentForm

end Scaffold.Text

import Scaffold.Proofs.Token.Modes
/-!
Brackets and quotes of tokens.  A part that closes only what it has itself
opened does the same within any brackets, so such parts can be put one behind
the other, and into brackets.  Main statements: `Closed.append`,
`Closed.enclose`.
-/
namespace Scaffold.Token

/-- The brackets that are open behind tokens, the innermost first, unless one of
the tokens closes another one than the innermost. -/
def nest (opened : List BracketKind) : List Token → Option (List BracketKind)
  | [] => some opened
  | t :: ts =>
    match t.kind, opened with
    | .bracket kind true, _ => nest (kind :: opened) ts
    | .bracket kind false, innermost :: outer =>
      if innermost = kind then nest outer ts else none
    | .bracket _ false, [] => none
    | _, _ => nest opened ts

/-- All brackets are nested and closed. -/
def Nested (ts : List Token) : Prop := nest [] ts = some []

instance (ts : List Token) : Decidable (Nested ts) :=
  inferInstanceAs (Decidable (_ = _))

def quote? (t : Token) : Option Bool :=
  match t.kind with
  | .quote single => some single
  | _ => none

/-- Every other quote closes the one in front of it, which is of its kind. -/
def Paired : List Bool → Prop
  | [] => True
  | [_] => False
  | opening :: closing :: rest => closing = opening ∧ Paired rest

def Quoted (ts : List Token) : Prop := Paired (ts.filterMap quote?)

theorem Paired.append {ks ls : List Bool} (hks : Paired ks) (hls : Paired ls) :
    Paired (ks ++ ls) := by
  fun_induction Paired ks with
  | case1 => exact hls
  | case2 => exact hks.elim
  | case3 opening closing rest ih => exact ⟨hks.1, ih hks.2⟩

@[simp]
theorem nest_nil (opened : List BracketKind) : nest opened [] = some opened :=
  rfl

section Nest

variable {t : Token} {kind : BracketKind}

theorem nest_open (ht : t.kind = .bracket kind true) (opened : List BracketKind)
    (ts : List Token) : nest opened (t :: ts) = nest (kind :: opened) ts := by
  rw [nest.eq_def]
  simp only [ht]

theorem nest_close (ht : t.kind = .bracket kind false) (innermost : BracketKind)
    (outer : List BracketKind) (ts : List Token) :
    nest (innermost :: outer) (t :: ts) = if innermost = kind then nest outer ts
      else none := by
  rw [nest.eq_def]
  simp only [ht]

theorem nest_of_isPlain (ht : t.kind.isPlain = true) (opened : List BracketKind)
    (ts : List Token) : nest opened (t :: ts) = nest opened ts := by
  rw [nest.eq_def]
  cases hkind : t.kind <;> simp_all [TokenKind.isPlain]

theorem nest_quote {single : Bool} (ht : t.kind = .quote single)
    (opened : List BracketKind) (ts : List Token) :
    nest opened (t :: ts) = nest opened ts := by
  rw [nest.eq_def]
  simp only [ht]

theorem nest_append (opened : List BracketKind) (ts us : List Token) :
    nest opened (ts ++ us) = (nest opened ts).bind (nest · us) := by
  fun_induction nest opened ts <;> simp_all [nest]

end Nest

/-- Tokens whose brackets close none that was open before, and whose quotes come
in pairs. -/
structure Closed (ts : List Token) : Prop where
  nests : ∀ opened, nest opened ts = (nest [] ts).map (· ++ opened)
  quoted : Quoted ts

section Closed

variable {ts us : List Token} {t u : Token}

theorem Closed.nil : Closed [] := ⟨fun _ => rfl, trivial⟩

theorem Closed.append (hts : Closed ts) (hus : Closed us) :
    Closed (ts ++ us) := by
  constructor
  · intro opened
    rw [nest_append, nest_append, hts.nests opened]
    cases nest [] ts with
    | none => rfl
    | some left =>
        rw [Option.map_some, Option.bind_some, Option.bind_some, hus.nests,
          hus.nests left, Option.map_map]
        congr 1
        funext inner
        exact (List.append_assoc inner left opened).symm
  · rw [Quoted, List.filterMap_append]
    exact hts.quoted.append hus.quoted

theorem nested_append (hus : Closed us) :
    Nested (ts ++ us) ↔ Nested ts ∧ Nested us := by
  rw [Nested, nest_append, Nested, Nested]
  cases nest [] ts with
  | none => simp
  | some left =>
      rw [Option.bind_some, hus.nests]
      cases nest [] us <;> simp [and_comm]

theorem quote?_of_isPlain (ht : t.kind.isPlain = true) : t.quote? = none := by
  rw [quote?]
  cases hkind : t.kind <;> simp_all [TokenKind.isPlain]

theorem closed_of_isPlain (hts : ∀ t ∈ ts, t.kind.isPlain = true) :
    Closed ts ∧ Nested ts := by
  induction ts with
  | nil => exact ⟨.nil, rfl⟩
  | cons t ts ih =>
      obtain ⟨ht, hts⟩ := List.forall_mem_cons.1 hts
      obtain ⟨⟨hnests, hquoted⟩, hnested⟩ := ih hts
      refine ⟨⟨fun opened => ?_, ?_⟩, ?_⟩
      · rw [nest_of_isPlain ht, nest_of_isPlain ht, hnests]
      · rwa [Quoted, List.filterMap_cons_none (quote?_of_isPlain ht)]
      · rwa [Nested, nest_of_isPlain ht]

/-- Between two brackets of a kind. -/
theorem Closed.enclose {kind : BracketKind} (ht : t.kind = .bracket kind true)
    (hu : u.kind = .bracket kind false) (hts : Closed ts) :
    Closed (t :: ts ++ [u]) ∧ (Nested (t :: ts ++ [u]) ↔ Nested ts) := by
  have hnest : ∀ opened, nest opened (t :: ts ++ [u]) =
      (nest [] ts).bind fun
        | [] => some opened
        | innermost :: outer =>
          if innermost = kind then some (outer ++ kind :: opened)
          else none := by
    intro opened
    rw [List.cons_append, nest_open ht, nest_append, hts.nests]
    cases nest [] ts with
    | none => rfl
    | some left =>
        rw [Option.map_some, Option.bind_some, Option.bind_some]
        cases left with
        | nil => rw [List.nil_append, nest_close hu, if_pos rfl, nest]
        | cons innermost outer => rw [List.cons_append, nest_close hu, nest]
  have hquotes : (t :: ts ++ [u]).filterMap quote? = ts.filterMap quote? := by
    simp [quote?, ht, hu]
  refine ⟨⟨fun opened => ?_, ?_⟩, ?_⟩
  · rw [hnest, hnest []]
    cases nest [] ts with
    | none => rfl
    | some left =>
        cases left with
        | nil => rfl
        | cons innermost outer =>
            by_cases hkind : innermost = kind <;> simp [hkind]
  · rw [Quoted, hquotes]
    exact hts.quoted
  · rw [Nested, hnest, Nested]
    cases nest [] ts with
    | none => simp
    | some left =>
        cases left with
        | nil => simp
        | cons innermost outer =>
            by_cases hkind : innermost = kind <;> simp [hkind]

/-- Between two quotes of a kind. -/
theorem closed_quoted {single : Bool} (ht : t.kind = .quote single)
    (hu : u.kind = .quote single) (hts : ∀ t ∈ ts, t.kind.isPlain = true) :
    Closed (t :: ts ++ [u]) ∧ Nested (t :: ts ++ [u]) := by
  obtain ⟨hclosed, hnested⟩ := closed_of_isPlain hts
  have hnest : ∀ opened, nest opened (t :: ts ++ [u]) = some opened := by
    intro opened
    rw [List.cons_append, nest_quote ht, nest_append, hclosed.nests, hnested,
      Option.map_some, Option.bind_some, nest_quote hu, nest_nil,
      List.nil_append]
  have hnone : ts.filterMap quote? = [] := by
    rw [List.filterMap_eq_nil_iff]
    intro v hv
    exact quote?_of_isPlain (hts v hv)
  refine ⟨⟨fun opened => ?_, ?_⟩, hnest []⟩
  · rw [hnest, hnest, Option.map_some, List.nil_append]
  · rw [Quoted]
    simp [hnone, quote?, ht, hu, Paired]

end Closed

end Scaffold.Token

import Scaffold.Proofs.Token.TextBody
/-!
Where tokens stand in a source.  Every rule of the lexer takes at least one of
the characters ahead, and no more than there are; so each step leaves the cursor
right behind the token that it yields, or where it was, and the tokens of a run
tile the source up to the cursor.  Main statement: `tokens_tile_source`.
-/
namespace Scaffold

/-- The character that an operator, a bracket or a quote is written as. -/
def TokenKind.mark? : TokenKind → Option Char
  | .operator op => some op.toChar
  | .bracket kind opens => some (kind.toChar opens)
  | .quote single => some (if single then '\'' else '"')
  | .literal _ | .blank _ | .repeater _ | .textPlaceholder | .number _ |
        .field _ _ =>
      none

namespace Lexer

/-- A lexeme lies within the characters ahead, and its mark is the first of
them. -/
structure Lexeme.Fits (l : Lexeme) (cs : List Char) : Prop where
  length_le : l.length ≤ cs.length
  mark : ∀ c ∈ l.kind.mark?, cs.head? = some c

theorem Lexeme.Fits.of_unmarked {l : Lexeme} {cs : List Char}
    (hmark : l.kind.mark? = none) (hlength : l.length ≤ cs.length) :
    l.Fits cs := by
  constructor
  · exact hlength
  · simp [hmark]

theorem Lexeme.Fits.of_mark {l : Lexeme} {c : Char} {cs : List Char}
    (hmark : l.kind.mark? = some c) (hlength : l.length = 1) :
    l.Fits (c :: cs) := by
  constructor
  · simp [hlength]
  · simp [hmark]

/-- The name of a field, and the brace that it leaves open, are among the
characters ahead. -/
theorem placeholderLength_le (opened : List Nat) (taken : Nat) (cs : List Char)
    (hopened : ∀ n ∈ opened, n ≤ taken) :
    (∀ n, placeholderLength opened taken cs = .ok n → n ≤ taken + cs.length) ∧
      ∀ n, placeholderLength opened taken cs = .error n →
      n ≤ taken + cs.length := by
  fun_induction placeholderLength opened taken cs with
  | case1 taken => simp
  | case2 taken inner outer => simpa using hopened inner (by simp)
  | case3 opened taken cs ih =>
      have hnext : ∀ n ∈ (taken + 1) :: opened, n ≤ taken + 1 := by
        simp only [List.forall_mem_cons, Nat.le_refl, true_and]
        intro n hn
        exact Nat.le_succ_of_le (hopened n hn)
      rw [List.length_cons, Nat.add_comm cs.length, ← Nat.add_assoc]
      exact ih hnext
  | case4 taken cs => simp
  | case5 taken cs n outer ih =>
      rw [List.length_cons, Nat.add_comm cs.length, ← Nat.add_assoc]
      apply ih
      intro m hm
      exact Nat.le_succ_of_le (hopened m (List.mem_cons_of_mem n hm))
  | case6 opened taken c cs _ _ ih =>
      rw [List.length_cons, Nat.add_comm cs.length, ← Nat.add_assoc]
      apply ih
      intro m hm
      exact Nat.le_succ_of_le (hopened m hm)

/-- What a field says in front of its closing brace, or in front of the place
where it is at fault, is among the characters ahead. -/
theorem fieldBody_le (cs : List Char) :
    (∀ index name n, fieldBody cs = .ok (index, name, n) → n ≤ cs.length) ∧
      ∀ n, fieldBody cs = .error n → n ≤ cs.length := by
  have hname : ∀ behind : List Char,
      (∀ n, placeholderLength [] 0 behind = .ok n → n ≤ behind.length) ∧
        ∀ n, placeholderLength [] 0 behind = .error n → n ≤ behind.length := by
    intro behind
    simpa using placeholderLength_le [] 0 behind (by simp)
  have hdigits : (cs.takeWhile Char.isDigit).length ≤ cs.length :=
    (List.takeWhile_prefix _).length_le
  simp only [fieldBody]
  split
  · split
    · next c rest _ =>
        split
        · have hbehind := hname (c :: rest)
          cases hread : placeholderLength [] 0 (c :: rest) with
          | ok n => simpa using hbehind.1 n hread
          | error n => simpa using hbehind.2 n hread
        · simp
    · simp
  · split
    · next rest hrest =>
        have hlength := congrArg List.length hrest
        rw [List.length_drop, List.length_cons] at hlength
        have hbehind := hname rest
        cases hread : placeholderLength [] 0 rest with
        | ok n =>
            have hn := hbehind.1 n hread
            constructor
            · rintro _ _ _ ⟨⟩
              omega
            · rintro _ ⟨⟩
        | error n =>
            have hn := hbehind.2 n hread
            constructor
            · rintro _ _ _ ⟨⟩
            · rintro _ ⟨⟩
              omega
    · simpa using hdigits

/-- What a rule answers fits, and a fault is among the characters ahead. -/
def AnswerFits (offset : Nat) (cs : List Char) :
    Except AbbreviationError (Option Lexeme) → Prop
  | .ok none => True
  | .ok (some l) => l.Fits cs
  | .error e =>
      ∃ place ≤ offset + cs.length,
        e = AbbreviationFault.openField.atOffset place

theorem field?_fits (ctx : Context) (offset : Nat) (cs : List Char) :
    AnswerFits offset cs (field? ctx offset cs) := by
  rw [field?.eq_def]
  split
  · next cs =>
      split
      · cases hbody : fieldBody cs with
        | error n =>
            have hn := (fieldBody_le cs).2 n hbody
            refine ⟨offset + 2 + n, ?_, rfl⟩
            simp only [List.length_cons]
            omega
        | ok field =>
            obtain ⟨index, name, n⟩ := field
            have hn := (fieldBody_le cs).1 index name n hbody
            dsimp only
            split
            · next rest hrest =>
                have hlength := congrArg List.length hrest
                rw [List.length_drop, List.length_cons] at hlength
                apply Lexeme.Fits.of_unmarked rfl
                simp only [List.length_cons]
                omega
            · refine ⟨offset + 2 + n, ?_, rfl⟩
              simp only [List.length_cons]
              omega
      · trivial
  · trivial

theorem textPlaceholder?_fits {ctx : Context} {cs : List Char} {l : Lexeme}
    (h : textPlaceholder? ctx cs = some l) : l.Fits cs := by
  rw [textPlaceholder?.eq_def] at h
  split at h
  · cases h
    apply Lexeme.Fits.of_unmarked rfl
    simp
  · cases h

/-- A sign and the digits behind it. -/
theorem signed_length_le (cs : List Char) :
    (if cs.head? == some '-' then 1 else 0) +
      ((cs.drop (if cs.head? == some '-' then 1 else 0)).takeWhile
        Char.isDigit).length ≤
        cs.length := by
  have hdigits := (List.takeWhile_prefix Char.isDigit
    (l := cs.drop (if cs.head? == some '-' then 1 else 0))).length_le
  rw [List.length_drop] at hdigits
  have hsign : (if cs.head? == some '-' then 1 else 0) ≤ cs.length := by
    split
    · next hhead =>
        rw [beq_iff_eq] at hhead
        exact List.length_pos_of_mem (List.mem_of_mem_head? hhead)
    · exact Nat.zero_le _
  omega

theorem number?_fits {ctx : Context} {cs : List Char} {l : Lexeme}
    (h : number? ctx cs = some l) : l.Fits cs := by
  rw [number?.eq_def] at h
  split at h
  · next cs =>
      have hmore : (cs.takeWhile (· == '$')).length ≤ cs.length :=
        (List.takeWhile_prefix _).length_le
      dsimp only at h
      split at h
      · next modifiers hmodifiers =>
          have hlength := congrArg List.length hmodifiers
          rw [List.length_drop, List.length_cons] at hlength
          have hlevels : (modifiers.takeWhile (· == '^')).length ≤
              modifiers.length :=
            (List.takeWhile_prefix _).length_le
          have hsigned := List.length_drop
            (i := (modifiers.takeWhile (· == '^')).length) (l := modifiers)
          have hvalue := signed_length_le
            (modifiers.drop (modifiers.takeWhile (· == '^')).length)
          cases h
          apply Lexeme.Fits.of_unmarked rfl
          simp only [List.length_cons]
          omega
      · cases h
        apply Lexeme.Fits.of_unmarked rfl
        simpa using hmore
  · cases h

theorem repeater?_fits {ctx : Context} {cs : List Char} {l : Lexeme}
    (h : repeater? ctx cs = some l) : l.Fits cs := by
  rw [repeater?.eq_def] at h
  split at h
  · next cs =>
      have hdigits : (cs.takeWhile Char.isDigit).length ≤ cs.length :=
        (List.takeWhile_prefix _).length_le
      cases h
      apply Lexeme.Fits.of_unmarked rfl
      simpa using hdigits
  · cases h

theorem blank?_fits {ctx : Context} {cs : List Char} {l : Lexeme}
    (h : blank? ctx cs = some l) : l.Fits cs := by
  rw [blank?.eq_def] at h
  split at h
  · next c cs =>
      have hrun : (cs.takeWhile isSpace).length ≤ cs.length :=
        (List.takeWhile_prefix _).length_le
      split at h
      · cases h
        apply Lexeme.Fits.of_unmarked rfl
        simpa using hrun
      · cases h
  · cases h

theorem literalRun_length_le (outer : Int) (ctx : Context)
    (before : Option Char) (cs : List Char) :
    (literalRun outer ctx before cs).length ≤ cs.length := by
  fun_induction literalRun outer ctx before cs <;>
    simp_all +zetaDelta [LiteralRun.cons]

theorem literal?_fits {ctx : Context} {before : Option Char} {cs : List Char}
    {l : Lexeme} (h : literal? ctx before cs = some l) : l.Fits cs := by
  rw [literal?] at h
  split at h
  · cases h
  · cases h
    apply Lexeme.Fits.of_unmarked rfl
    exact literalRun_length_le _ ctx before cs

theorem mark?_fits {ctx : Context} {cs : List Char} {l : Lexeme}
    (h : mark? ctx cs = some l) : l.Fits cs := by
  rw [mark?.eq_def] at h
  split at h
  · next c cs =>
      split at h
      · next op hop =>
          cases h
          exact .of_mark (congrArg some (Operator.toChar_of_ofChar? hop)) rfl
      · split at h
        · next hquote =>
            cases h
            rw [isQuoteMark, Bool.or_eq_true, beq_iff_eq, beq_iff_eq] at hquote
            rcases hquote with rfl | rfl
            · exact .of_mark rfl rfl
            · exact .of_mark rfl rfl
        · split at h
          · next kind opens hbracket =>
              cases h
              exact .of_mark
                (congrArg some (BracketKind.toChar_of_ofChar? hbracket)) rfl
          · cases h
  · cases h

/-- The token ahead fits: the rules are tried one after the other, and only that
for fields can find a fault. -/
theorem lexeme?_fits (ctx : Context) (before : Option Char) (offset : Nat)
    (cs : List Char) : AnswerFits offset cs (lexeme? ctx before offset cs) := by
  have hfield := field?_fits ctx offset cs
  rw [lexeme?]
  cases hread : field? ctx offset cs with
  | error e =>
      rw [hread] at hfield
      exact hfield
  | ok found =>
      rw [hread] at hfield
      cases found with
      | some l => exact hfield
      | none =>
          dsimp only
          generalize hrule : (textPlaceholder? ctx cs <|> number? ctx cs <|>
            repeater? ctx cs <|> blank? ctx cs <|> literal? ctx before cs <|>
            mark? ctx cs) = answer
          cases answer with
          | none => trivial
          | some l =>
              simp only [Option.orElse_eq_orElse, Option.orElse_eq_or,
                Option.or_eq_some_iff] at hrule
              rcases hrule with h | ⟨-, h | ⟨-, h | ⟨-, h | ⟨-, h | ⟨-, h⟩⟩⟩⟩⟩
              · exact textPlaceholder?_fits h
              · exact number?_fits h
              · exact repeater?_fits h
              · exact blank?_fits h
              · exact literal?_fits h
              · exact mark?_fits h

/-- Where the lexer stands in a source: its context, the character just behind
it, and those that are ahead. -/
structure Cursor where
  context : Context := {}
  before : Option Char := none
  offset : Nat := 0
  ahead : List Char

namespace Cursor

def start (source : String) : Cursor := { ahead := source.toList }

def advance (c : Cursor) (l : Lexeme) : Cursor :=
  ⟨l.context, (c.ahead.take l.length).getLast?, c.offset + l.length,
    c.ahead.drop l.length⟩

/-- One step of the lexer: the token ahead, if there is one, and the cursor
behind it. -/
def step (c : Cursor) : Except AbbreviationError (Option Token × Cursor) :=
  match lexeme? c.context c.before c.offset c.ahead with
  | .error e => .error e
  | .ok none => .ok (none, c)
  | .ok (some l) =>
      .ok (some ⟨l.kind, c.offset, c.offset + l.length⟩, c.advance l)

def tokens (c : Cursor) : Except AbbreviationError (List Token) :=
  tokensFrom c.context c.before c.offset c.ahead

/-- A step that yields a token: the token stands where the cursor moves over,
which is not nothing. -/
structure Yields (c : Cursor) (t : Token) (c' : Cursor) : Prop where
  start : t.start = c.offset
  stop : t.stop = c'.offset
  moves : c.offset < c'.offset
  offset_le : c'.offset ≤ c.offset + c.ahead.length
  before : c'.before = (c.ahead.take (c'.offset - c.offset)).getLast?
  ahead : c'.ahead = c.ahead.drop (c'.offset - c.offset)
  mark : ∀ m ∈ t.kind.mark?, c.ahead.head? = some m

/-- A step yields a token and moves behind it, or finds none and stays, or is at
fault. -/
theorem step_cases (c : Cursor) :
    (∃ t c', c.step = .ok (some t, c') ∧ c.Yields t c') ∨
    c.step = .ok (none, c) ∨
      ∃ place ≤ c.offset + c.ahead.length,
        c.step = .error (AbbreviationFault.openField.atOffset place) := by
  have hfits := lexeme?_fits c.context c.before c.offset c.ahead
  rw [step]
  cases hread : lexeme? c.context c.before c.offset c.ahead with
  | error e =>
      rw [hread] at hfits
      obtain ⟨place, hplace, rfl⟩ := hfits
      exact .inr (.inr ⟨place, hplace, rfl⟩)
  | ok found =>
      rw [hread] at hfits
      cases found with
      | none => exact .inr (.inl rfl)
      | some l =>
          have hpos := l.length_pos
          have hlength := hfits.length_le
          have hmoved : c.offset + l.length - c.offset = l.length :=
            Nat.add_sub_cancel_left ..
          refine .inl ⟨_, _, rfl, rfl, rfl, ?_, ?_, ?_, ?_, hfits.mark⟩
          · exact Nat.lt_add_of_pos_right hpos
          · exact Nat.add_le_add_left hlength _
          · rw [advance, hmoved]
          · rw [advance, hmoved]

/-- The tokens ahead, by the step that the cursor can take. -/
theorem tokens_of_step {c : Cursor} (hahead : c.ahead ≠ []) :
    c.tokens =
      match c.step with
      | .error e => .error e
      | .ok (none, c') =>
          .error (AbbreviationFault.strayCharacter.atOffset c'.offset)
      | .ok (some t, c') => c'.tokens.map (t :: ·) := by
  have hsome : ¬ c.ahead.isEmpty = true := by simpa using hahead
  rw [tokens, tokensFrom, if_neg hsome, step]
  cases lexeme? c.context c.before c.offset c.ahead with
  | error e => rfl
  | ok found =>
      cases found with
      | none => rfl
      | some l =>
          have hadvance : tokensFrom l.context (c.ahead.take l.length).getLast?
              (c.offset + l.length) (c.ahead.drop l.length) =
                (c.advance l).tokens := rfl
          dsimp only
          rw [hadvance]
          cases (c.advance l).tokens with
          | error e => rfl
          | ok tokens => rfl

/-- A cursor that stands in a source. -/
structure IsIn (source : String) (c : Cursor) : Prop where
  before : c.before = (source.toList.take c.offset).getLast?
  ahead : c.ahead = source.toList.drop c.offset
  offset_le : c.offset ≤ source.length

/-- A token that stands in a source: its mark is written where it starts. -/
structure Shows (source : String) (t : Token) : Prop where
  start_lt : t.start < t.stop
  stop_le : t.stop ≤ source.length
  mark : ∀ m ∈ t.kind.mark?, source.toList[t.start]? = some m

theorem isIn_start (source : String) : (start source).IsIn source := by
  constructor <;> simp [start]

theorem IsIn.offset_add_length {source : String} {c : Cursor}
    (h : c.IsIn source) : c.offset + c.ahead.length = source.length := by
  have hle := h.offset_le
  rw [h.ahead, List.length_drop, String.length_toList]
  omega

theorem IsIn.yields {source : String} {c c' : Cursor} {t : Token}
    (h : c.IsIn source) (hyields : c.Yields t c') : c'.IsIn source := by
  have hmoves := hyields.moves
  have hoffset : c.offset + (c'.offset - c.offset) = c'.offset := by omega
  constructor
  · have hsplit := List.take_add (l := source.toList) (i := c.offset)
      (j := c'.offset - c.offset)
    rw [hoffset, ← h.ahead] at hsplit
    have hsome : c.ahead.take (c'.offset - c.offset) ≠ [] := by
      have hle := hyields.offset_le
      rw [← List.length_pos_iff, List.length_take]
      omega
    rw [hyields.before, hsplit, List.getLast?_append,
      List.getLast?_eq_some_getLast hsome]
    rfl
  · rw [hyields.ahead, h.ahead, List.drop_drop, hoffset]
  · exact h.offset_add_length ▸ hyields.offset_le

theorem IsIn.shows {source : String} {c c' : Cursor} {t : Token}
    (h : c.IsIn source) (hyields : c.Yields t c') : Shows source t := by
  constructor
  · rw [hyields.start, hyields.stop]
    exact hyields.moves
  · rw [hyields.stop]
    exact (h.yields hyields).offset_le
  · intro m hm
    rw [hyields.start, ← hyields.mark m hm, h.ahead, List.head?_drop]

/-- Steps that yield tokens lead from one cursor to another. -/
inductive Lexes : Cursor → List Token → Cursor → Prop
  | nil (c : Cursor) : Lexes c [] c
  | cons {c c' c'' : Cursor} {t : Token} {ts : List Token}
    (hstep : c.step = .ok (some t, c'))
      (hrest : Lexes c' ts c'') : Lexes c (t :: ts) c''

theorem yields_of_step {c c' : Cursor} {t : Token}
    (hstep : c.step = .ok (some t, c')) : c.Yields t c' := by
  rcases c.step_cases with ⟨t', c'', hstep', hyields⟩ | hnone |
    ⟨place, -, herror⟩
  · rw [hstep] at hstep'
    cases hstep'
    exact hyields
  · rw [hstep] at hnone
    cases hnone
  · rw [hstep] at herror
    cases herror

/-- The tokens of a run tile the part of the source that it moved over. -/
theorem Lexes.tile {c c' : Cursor} {ts : List Token} (h : Lexes c ts c') :
    Token.Tile ts c.offset c'.offset := by
  induction h with
  | nil c => rfl
  | cons hstep _ ih =>
      have hyields := yields_of_step hstep
      refine ⟨hyields.start, ?_, ?_⟩
      · rw [hyields.stop]
        exact hyields.moves
      · rw [hyields.stop]
        exact ih

theorem Lexes.isIn {source : String} {c c' : Cursor} {ts : List Token}
    (h : Lexes c ts c') (hc : c.IsIn source) : c'.IsIn source := by
  induction h with
  | nil c => exact hc
  | cons hstep _ ih => exact ih (hc.yields (yields_of_step hstep))

theorem Lexes.shows {source : String} {c c' : Cursor} {ts : List Token}
    (h : Lexes c ts c') (hc : c.IsIn source) : ∀ t ∈ ts, Shows source t := by
  induction h with
  | nil c => simp
  | cons hstep _ ih =>
      have hyields := yields_of_step hstep
      rw [List.forall_mem_cons]
      exact ⟨hc.shows hyields, ih (hc.yields hyields)⟩

/-- How a run ends: with nothing ahead, or with no token or a fault ahead. -/
inductive Ends (c : Cursor) (ts : List Token) :
    Except AbbreviationError (List Token) → Prop
  | all (hahead : c.ahead = []) : Ends c ts (.ok ts)
  | stray (hahead : c.ahead ≠ []) (hstep : c.step = .ok (none, c)) :
      Ends c ts (.error (AbbreviationFault.strayCharacter.atOffset c.offset))
  | fault {place : Nat} (hplace : place ≤ c.offset + c.ahead.length)
      (hstep : c.step = .error (AbbreviationFault.openField.atOffset place)) :
      Ends c ts (.error (AbbreviationFault.openField.atOffset place))

/-- Reading what is ahead takes one step after the other, as long as they yield
tokens. -/
theorem exists_lexes (c : Cursor) :
    ∃ ts c', Lexes c ts c' ∧ Ends c' ts c.tokens := by
  by_cases hahead : c.ahead = []
  · have htokens : c.tokens = .ok [] := by
      rw [tokens, tokensFrom, hahead]
      rfl
    rw [htokens]
    exact ⟨[], c, .nil c, .all hahead⟩
  · rw [tokens_of_step hahead]
    rcases c.step_cases with ⟨t, c', hstep, hyields⟩ | hstep |
      ⟨place, hplace, hstep⟩
    · obtain ⟨ts, c'', hlexes, hends⟩ := exists_lexes c'
      refine ⟨t :: ts, c'', .cons hstep hlexes, ?_⟩
      rw [hstep]
      dsimp only
      generalize c'.tokens = answer at hends ⊢
      cases hends with
      | all hahead => exact .all hahead
      | stray hahead hstep => exact .stray hahead hstep
      | fault hplace hstep => exact .fault hplace hstep
    · refine ⟨[], c, .nil c, ?_⟩
      rw [hstep]
      exact .stray hahead hstep
    · refine ⟨[], c, .nil c, ?_⟩
      rw [hstep]
      exact .fault hplace hstep
termination_by c.ahead.length
decreasing_by
  have hmoves := hyields.moves
  have hle := hyields.offset_le
  rw [hyields.ahead, List.length_drop]
  omega

end Cursor

open Cursor

theorem exists_lexes_of_tokenize {source : String} {tokens : List Token}
    (h : tokenize source = .ok tokens) :
    ∃ c, Lexes (start source) tokens c ∧ c.ahead = [] := by
  obtain ⟨ts, c, hlexes, hends⟩ := exists_lexes (start source)
  have hanswer : (start source).tokens = .ok tokens := h
  rw [hanswer] at hends
  cases hends with
  | all hahead => exact ⟨c, hlexes, hahead⟩

theorem shows_of_tokenize {source : String} {tokens : List Token}
    (h : tokenize source = .ok tokens) : ∀ t ∈ tokens, Shows source t := by
  obtain ⟨c, hlexes, -⟩ := exists_lexes_of_tokenize h
  exact hlexes.shows (isIn_start source)

/-- The lexer is at fault with a character of the source, or with a field that
may miss its brace at the end. -/
theorem place_of_tokenize {source : String} {e : AbbreviationError}
    (h : tokenize source = .error e) :
    (∃ place < source.length,
      e = AbbreviationFault.strayCharacter.atOffset place) ∨
      ∃ place ≤ source.length,
      e = AbbreviationFault.openField.atOffset place := by
  obtain ⟨ts, c, hlexes, hends⟩ := exists_lexes (start source)
  have hlength := (hlexes.isIn (isIn_start source)).offset_add_length
  have hanswer : (start source).tokens = .error e := h
  rw [hanswer] at hends
  cases hends with
  | stray hahead _ =>
      have hpos := List.length_pos_iff.2 hahead
      exact .inl ⟨c.offset, by omega, rfl⟩
  | @fault place hplace _ => exact .inr ⟨place, hlength ▸ hplace, rfl⟩

/-- The tokens of a source tile it, from its first character to its last.  At
every moment of a run the cursor is right behind the tokens so far; whatever the
context, the next step yields a token of at least one character and moves behind
it, or finds none and stays where it was, or ends the run with an error. -/
theorem tokens_tile_source (source : String) :
    (∀ tokens, tokenize source = .ok tokens →
      Token.Tile tokens 0 source.length ∧ (tokens = [] ↔ source = "")) ∧
    (∀ tokens c, Lexes (start source) tokens c →
      Token.Tile tokens 0 c.offset ∧ c.IsIn source) ∧
    ∀ c : Cursor, c.ahead ≠ [] →
      (∃ t c', c.step = .ok (some t, c') ∧ c.Yields t c' ∧
        c.tokens = c'.tokens.map (t :: ·)) ∨
      (c.step = .ok (none, c) ∧
        c.tokens =
          .error (AbbreviationFault.strayCharacter.atOffset c.offset)) ∨
      ∃ e, c.step = .error e ∧ c.tokens = .error e := by
  refine ⟨?_, ?_, ?_⟩
  · intro tokens htokens
    obtain ⟨c, hlexes, hahead⟩ := exists_lexes_of_tokenize htokens
    have hlength := (hlexes.isIn (isIn_start source)).offset_add_length
    rw [hahead, List.length_nil, Nat.add_zero] at hlength
    have htile : Token.Tile tokens 0 source.length := hlength ▸ hlexes.tile
    refine ⟨htile, ?_, ?_⟩
    · rintro rfl
      have hzero : 0 = source.length := htile
      exact String.length_eq_zero_iff.1 hzero.symm
    · rintro rfl
      rw [tokenize, tokensFrom] at htokens
      cases htokens
      rfl
  · intro tokens c hlexes
    exact ⟨hlexes.tile, hlexes.isIn (isIn_start source)⟩
  · intro c hahead
    have hrun := tokens_of_step hahead
    rcases c.step_cases with ⟨t, c', hstep, hyields⟩ | hstep | ⟨place, -, hstep⟩
    · rw [hstep] at hrun
      exact .inl ⟨t, c', hstep, hyields, hrun⟩
    · rw [hstep] at hrun
      exact .inr (.inl ⟨hstep, hrun⟩)
    · rw [hstep] at hrun
      exact .inr (.inr ⟨_, hstep, hrun⟩)

end Lexer

end Scaffold

import Scaffold.Statement.Parser
/-!
The tokens that the parser's errors are about.  Each reader of a part blames a
token that it has read: the one that opened what is not closed, or the one that
fits nowhere.  A part is read from the tokens behind some others, and to blame a
token of those is to blame one of all.  Main statement: `blames_of_parse`.
-/
namespace Scaffold.Statement

/-- An error of a parser that has read some tokens: it is at the start of one of
them.  No quote like the one that is not closed comes behind it. -/
inductive Blames (tokens : List Token) : AbbreviationError → Prop
  | strayCharacter {t : Token} (ht : t ∈ tokens) :
      Blames tokens (AbbreviationFault.strayCharacter.atOffset t.start)
  | strayToken {t : Token} (ht : t ∈ tokens) :
      Blames tokens ((AbbreviationFault.strayToken t.kindName).atOffset t.start)
  | openGroup {t : Token} (ht : t ∈ tokens) (hkind : t.kind =
    .bracket .group true) :
      Blames tokens (AbbreviationFault.openGroup.atOffset t.start)
  | openAttributeSet {t : Token} (ht : t ∈ tokens) (hkind : t.kind =
    .bracket .attributes true) :
      Blames tokens (AbbreviationFault.openAttributeSet.atOffset t.start)
  | openText {t : Token} (ht : t ∈ tokens) (hkind : t.kind =
    .bracket .expression true) :
      Blames tokens (AbbreviationFault.openText.atOffset t.start)
  | openQuote {front behind : List Token} {t : Token} {single : Bool}
      (htokens : tokens = front ++ t :: behind) (hkind : t.kind = .quote single)
      (hopen : ∀ u ∈ behind, u.kind ≠ .quote single) :
      Blames tokens (AbbreviationFault.openQuote.atOffset t.start)

theorem Blames.of_suffix {ts tokens : List Token} {e : AbbreviationError}
    (h : Blames ts e) (hsuffix : ts <:+ tokens) : Blames tokens e := by
  cases h with
  | strayCharacter ht => exact .strayCharacter (hsuffix.subset ht)
  | strayToken ht => exact .strayToken (hsuffix.subset ht)
  | openGroup ht hkind => exact .openGroup (hsuffix.subset ht) hkind
  | openAttributeSet ht hkind =>
      exact .openAttributeSet (hsuffix.subset ht) hkind
  | openText ht hkind => exact .openText (hsuffix.subset ht) hkind
  | @openQuote front behind t single htokens hkind hopen =>
      obtain ⟨skipped, rfl⟩ := hsuffix
      have hfront : skipped ++ ts = (skipped ++ front) ++ t :: behind := by
        rw [htokens, List.append_assoc]
      exact .openQuote hfront hkind hopen

theorem Blames.of_drop {ts : List Token} {e : AbbreviationError} {n : Nat}
    (h : Blames (ts.drop n) e) : Blames ts e :=
  h.of_suffix (List.drop_suffix n ts)

theorem Blames.of_cons {t : Token} {ts : List Token} {e : AbbreviationError}
    (h : Blames ts e) : Blames (t :: ts) e :=
  h.of_suffix (List.suffix_cons t ts)

theorem kind_of_isBracket {t : Token} {kind : BracketKind} {opens : Bool}
    (h : t.isBracket kind opens = true) : t.kind = .bracket kind opens := by
  rwa [Token.isBracket, beq_iff_eq] at h

/-- A reader that goes on after another is at fault where that one is, or with
what comes behind. -/
theorem error_of_bind {α β : Type} {first : Except AbbreviationError α}
    {next : α → Except AbbreviationError β} {e : AbbreviationError}
    (h : first >>= next = .error e) :
    first = .error e ∨ ∃ a, first = .ok a ∧ next a = .error e := by
  cases first with
  | error e' =>
      cases h
      exact .inl rfl
  | ok a => exact .inr ⟨a, rfl, h⟩

namespace Parser

theorem blames_of_text? {ts : List Token} {e : AbbreviationError}
    (h : text? ts = .error e) : Blames ts e := by
  cases ts with
  | nil => cases h
  | cons t rest =>
      rw [text?] at h
      split at h
      · next hopen =>
          split at h
          · cases h
          · cases h
            exact .openText List.mem_cons_self (kind_of_isBracket hopen)
      · cases h

theorem ne_quote_of_quotedLength? {single : Bool} {ts : List Token}
    (h : quotedLength? single ts = none) :
    ∀ t ∈ ts, t.kind ≠ .quote single := by
  induction ts with
  | nil => simp
  | cons t ts ih =>
      rw [quotedLength?] at h
      split at h
      · cases h
      · next hquote =>
          rw [List.forall_mem_cons]
          refine ⟨?_, ih (Option.map_eq_none_iff.1 h)⟩
          intro hkind
          exact hquote (by simp [Token.isQuote, hkind])

theorem blames_of_quoted {ts : List Token} {e : AbbreviationError}
    (h : quoted ts = .error e) : Blames ts e := by
  cases ts with
  | nil => cases h
  | cons t rest =>
      rw [quoted] at h
      split at h
      · next single hkind =>
          split at h
          · cases h
          · next hnone =>
              cases h
              exact .openQuote (List.nil_append _).symm hkind
                (ne_quote_of_quotedLength? hnone)
      · cases h

theorem blames_of_attributeValue {ts : List Token} {e : AbbreviationError}
    (h : attributeValue ts = .error e) : Blames ts e := by
  rcases error_of_bind h with hquoted | ⟨n, -, hnone⟩
  · exact blames_of_quoted hquoted
  · cases hnone

theorem blames_of_attributeTokens? {ts : List Token} {e : AbbreviationError}
    (h : attributeTokens? ts = .error e) : Blames ts e := by
  rcases error_of_bind h with hquoted | ⟨n, -, hbehind⟩
  · exact blames_of_quoted hquoted
  · dsimp only at hbehind
    split at hbehind
    · cases hbehind
    · split at hbehind
      · cases hbehind
      · split at hbehind
        · next t rest hrest =>
            split at hbehind
            · rcases error_of_bind hbehind with hvalue | ⟨value, -, hnone⟩
              · have hblames : Blames (t :: rest) e :=
                  (blames_of_attributeValue hvalue).of_cons
                rw [← hrest] at hblames
                exact hblames.of_drop
              · cases hnone
            · cases hbehind
        · cases hbehind

/-- A set of attributes that is not closed is blamed on the bracket that opened
it. -/
theorem blames_of_attributeSet {opener : Token} {ts : List Token}
    {e : AbbreviationError} (h : attributeSet opener ts = .error e) :
    e = AbbreviationFault.openAttributeSet.atOffset opener.start ∨
    Blames ts e := by
  fun_induction attributeSet opener ts with
  | case1 =>
      cases h
      exact .inl rfl
  | case2 t rest e' hattribute =>
      cases h
      exact .inr (blames_of_attributeTokens? hattribute)
  | case3 t rest a n hattribute e' hmore ih =>
      cases h
      rcases ih hmore with hopener | hblames
      · exact .inl hopener
      · exact .inr hblames.of_drop.of_cons
  | case4 => cases h
  | case5 => cases h
  | case6 t rest hattribute hclose hblank e' hmore ih =>
      cases h
      rcases ih hmore with hopener | hblames
      · exact .inl hopener
      · exact .inr hblames.of_cons
  | case7 => cases h
  | case8 t rest =>
      cases h
      exact .inr (.strayToken List.mem_cons_self)

theorem blames_of_shorthand? {jsx : Bool} {ts : List Token}
    {e : AbbreviationError} (h : shorthand? jsx ts = .error e) :
    Blames ts e := by
  rw [shorthand?.eq_def] at h
  split at h
  · cases h
  · next t rest =>
      split at h
      · next op hop =>
          split at h
          · cases h
          · next name hname =>
              rcases error_of_bind h with htext | ⟨text, -, hnone⟩
              · split at htext
                · exact (blames_of_text? htext).of_drop.of_cons
                · cases htext
              · cases text with
                | some n => cases hnone
                | none =>
                    dsimp only at hnone
                    split at hnone <;> cases hnone
      · cases h

/-- Whichever part of an element is at fault, it is blamed on one of its
tokens. -/
theorem blames_of_elementParts {jsx : Bool} {element : ElementTokens}
    {ts : List Token} {e : AbbreviationError}
    (h : elementParts jsx element ts = .error e) : Blames ts e := by
  induction hlength : ts.length using Nat.strongRecOn
    generalizing element ts with
  | ind length ih =>
    subst hlength
    rw [elementParts.eq_def] at h
    cases ts with
    | nil => cases h
    | cons t rest =>
        have hbehind : ∀ {element' : ElementTokens} {n : Nat},
            elementParts jsx element' (rest.drop (n - 1)) = .error e →
              Blames (t :: rest) e := by
          intro element' n herror
          have hshorter : (rest.drop (n - 1)).length < (t :: rest).length := by
            simp only [List.length_drop, List.length_cons]
            omega
          exact (ih _ hshorter herror rfl).of_drop.of_cons
        dsimp only at h
        split at h
        · split at h
          · next herror =>
              cases h
              exact hbehind herror
          · cases h
        · split at h
          · next herror =>
              cases h
              split at herror
              · exact blames_of_text? herror
              · cases herror
          · split at h
            · next herror =>
                cases h
                exact hbehind herror
            · cases h
          · split at h
            · next herror =>
                cases h
                exact blames_of_shorthand? herror
            · split at h
              · next herror =>
                  cases h
                  exact hbehind herror
              · cases h
            · split at h
              · next hopen =>
                  split at h
                  · next herror =>
                      cases h
                      rcases blames_of_attributeSet herror with rfl | hblames
                      · exact .openAttributeSet List.mem_cons_self
                          (kind_of_isBracket hopen)
                      · exact hblames.of_cons
                  · split at h
                    · next herror =>
                        cases h
                        exact hbehind herror
                    · cases h
              · cases h

theorem blames_of_element? {jsx : Bool} {ts : List Token}
    {e : AbbreviationError} (h : element? jsx ts = .error e) : Blames ts e := by
  rw [element?] at h
  split at h
  · next herror =>
      cases h
      exact (blames_of_elementParts herror).of_drop
  · cases h

/-- What the walk over tokens is at fault with is one of them, or the bracket of
a group that was open before. -/
theorem blames_of_statementsFrom {jsx : Bool} {groups : List OpenGroup}
    {path : Path} {ts : List Token} {e : AbbreviationError}
    (h : statementsFrom jsx groups path ts = .error e) :
    (∃ g ∈ groups, e = AbbreviationFault.openGroup.atOffset g.opener.start) ∨
    Blames ts e := by
  fun_induction statementsFrom jsx groups path ts with
  | case1 => cases h
  | case2 path g groups =>
      cases h
      exact .inl ⟨g, List.mem_cons_self, rfl⟩
  | case3 groups path t rest e' herror =>
      cases h
      exact .inr (blames_of_element? herror)
  | case4 groups path t rest element n hread behind path' m hfollow ih =>
      rcases ih h with hopen | hblames
      · exact .inl hopen
      · exact .inr hblames.of_drop.of_drop.of_cons
  | case5 groups path t rest hread hopen ih =>
      rcases ih h with ⟨g, hg, rfl⟩ | hblames
      · rcases List.mem_cons.1 hg with rfl | hg
        · exact .inr (.openGroup List.mem_cons_self (kind_of_isBracket hopen))
        · exact .inl ⟨g, hg, rfl⟩
      · exact .inr hblames.of_cons
  | case6 path t rest hread hopen g groups hclose r behind path' m hfollow ih =>
      rcases ih h with ⟨outer, houter, rfl⟩ | hblames
      · exact .inl ⟨outer, List.mem_cons_of_mem g houter, rfl⟩
      · exact .inr hblames.of_drop.of_drop.of_cons
  | case7 groups path t rest =>
      cases h
      exact .inr (.strayCharacter List.mem_cons_self)

end Parser

/-- Every error of the parser is about one of its tokens. -/
theorem blames_of_parse {jsx : Bool} {tokens : List Token}
    {e : AbbreviationError} (h : parse jsx tokens = .error e) :
    Blames tokens e := by
  rcases Parser.blames_of_statementsFrom h with ⟨g, hg, -⟩ | hblames
  · cases hg
  · exact hblames

end Scaffold.Statement

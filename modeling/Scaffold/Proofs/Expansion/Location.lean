import Mathlib
import Scaffold.Expansion
import Scaffold.Proofs.Statement.Blame
import Scaffold.Proofs.Statement.Stack
import Scaffold.Proofs.Token.Tiling
/-!
Where the errors of an expansion are.  An expansion fails only on the source
itself, when that is cut into tokens or these are read; what the parser blames
is a token, and a token stands in the source where its mark is written.  Main
statement: `expand_error_located`.
-/
namespace Scaffold

/-- What is written where an error of a class is: for what is not closed, the
character that opened it. -/
def AbbreviationErrorKind.IsAt : AbbreviationErrorKind → Char → Prop
  | .unclosedAttributeSet, c => c = '['
  | .unclosedText, c => c = '{'
  | .unclosedGroup, c => c = '('
  | .unclosedQuote, c => Lexer.isQuoteMark c = true
  | .unclosedField, _ | .unexpectedCharacter, _ | .unexpectedToken, _ => True

/-- An error is at the start of a token, where its class says what is
written. -/
def AbbreviationError.IsAtToken (source : String) (tokens : List Token)
    (e : AbbreviationError) : Prop :=
  ∃ t ∈ tokens, e.offset = some t.start ∧ t.start < source.length ∧
    ∃ c, source.toList[t.start]? = some c ∧ e.kind.IsAt c

theorem AbbreviationFault.message_ne (fault : AbbreviationFault) :
    fault.message ≠ "Invalid statement tree" := by
  cases fault with
  | strayToken kind =>
      intro h
      have hchars := congrArg String.toList h
      simp [message] at hchars
  | _ => decide

namespace Statement

open Lexer.Cursor

/-- What the parser blames stands in the source. -/
theorem Blames.isAtToken {source : String} {tokens : List Token}
    {e : AbbreviationError} (h : Blames tokens e)
    (hshows : ∀ t ∈ tokens, Shows source t) : e.IsAtToken source tokens := by
  have hplace : ∀ t ∈ tokens, t.start < source.length := by
    intro t ht
    exact Nat.lt_of_lt_of_le (hshows t ht).start_lt (hshows t ht).stop_le
  have hwritten : ∀ t ∈ tokens, ∃ c, source.toList[t.start]? = some c := by
    intro t ht
    have hlt := hplace t ht
    rw [← String.length_toList] at hlt
    exact ⟨_, List.getElem?_eq_getElem hlt⟩
  cases h with
  | strayCharacter ht =>
      obtain ⟨c, hc⟩ := hwritten _ ht
      exact ⟨_, ht, rfl, hplace _ ht, c, hc, trivial⟩
  | strayToken ht =>
      obtain ⟨c, hc⟩ := hwritten _ ht
      exact ⟨_, ht, rfl, hplace _ ht, c, hc, trivial⟩
  | openGroup ht hkind =>
      exact ⟨_, ht, rfl, hplace _ ht, '(',
        (hshows _ ht).mark _ (by rw [hkind]; rfl), rfl⟩
  | openAttributeSet ht hkind =>
      exact ⟨_, ht, rfl, hplace _ ht, '[',
        (hshows _ ht).mark _ (by rw [hkind]; rfl), rfl⟩
  | openText ht hkind =>
      exact ⟨_, ht, rfl, hplace _ ht, '{',
        (hshows _ ht).mark _ (by rw [hkind]; rfl), rfl⟩
  | @openQuote front behind t single htokens hkind =>
      have ht : t ∈ tokens := by simp [htokens]
      refine ⟨t, ht, rfl, hplace t ht, _,
        (hshows t ht).mark _ (by rw [hkind]; rfl), ?_⟩
      cases single <;> rfl

theorem Blames.exists_fault {tokens : List Token} {e : AbbreviationError}
    (h : Blames tokens e) :
    ∃ (fault : AbbreviationFault) (place : Nat), e = fault.atOffset place := by
  cases h <;> exact ⟨_, _, rfl⟩

end Statement

/-- An expansion fails exactly if the source cannot be cut into tokens or these
cannot be read. -/
theorem expand_eq_error_iff (c : Config) (source : String)
    (e : AbbreviationError) :
    expand c source = .error e ↔
      tokenize source = .error e ∨
        ∃ tokens, tokenize source = .ok tokens ∧
          Statement.parse c.options.jsx tokens = .error e := by
  rw [expand, Expansion.tree, Expansion.resolve, Node.ofSource?]
  cases tokenize source with
  | error e' => simp
  | ok tokens =>
      cases hparse : Statement.parse c.options.jsx tokens with
      | error e' => simp [hparse]
      | ok statements => simp [hparse]

/-- An expansion fails exactly if its own source cannot be cut into tokens or
these cannot be read, whatever the snippets are.  The lexer's errors are within
the source or at its end, and the parser's at the start of a token, where what
is not closed was opened.  So every error has a place, and none is about a
broken stack of statements, which a walk with such a stack never meets. -/
theorem expand_error_located (c : Config) (source : String) :
    (∀ e, expand c source = .error e ↔
      tokenize source = .error e ∨
        ∃ tokens, tokenize source = .ok tokens ∧
          Statement.parse c.options.jsx tokens = .error e) ∧
    (∀ e, tokenize source = .error e →
      (∃ place < source.length,
        e = AbbreviationFault.strayCharacter.atOffset place) ∨
        ∃ place ≤ source.length,
          e = AbbreviationFault.openField.atOffset place) ∧
    (∀ tokens e, tokenize source = .ok tokens →
      Statement.parse c.options.jsx tokens = .error e →
      Statement.Blames tokens e ∧ e.IsAtToken source tokens) ∧
    (∀ e, expand c source = .error e →
      (∃ place ≤ source.length, e.offset = some place) ∧
        e.message ≠ "Invalid statement tree") ∧
    ∀ tokens, Statement.Parser.stackedFrom c.options.jsx []
      [.group [] none] tokens =
      Statement.parse c.options.jsx tokens := by
  have hparser : ∀ tokens e, tokenize source = .ok tokens →
      Statement.parse c.options.jsx tokens = .error e →
      Statement.Blames tokens e ∧ e.IsAtToken source tokens := by
    intro tokens e htokens hparse
    have hblames := Statement.blames_of_parse hparse
    exact ⟨hblames, hblames.isAtToken (Lexer.shows_of_tokenize htokens)⟩
  refine ⟨expand_eq_error_iff c source, fun _ => Lexer.place_of_tokenize,
    hparser, ?_, ?_⟩
  · intro e he
    rcases (expand_eq_error_iff c source e).1 he
      with htokens | ⟨tokens, htokens, hparse⟩
    · rcases Lexer.place_of_tokenize htokens
        with ⟨place, hplace, rfl⟩ | ⟨place, hplace, rfl⟩
      · exact ⟨⟨place, Nat.le_of_lt hplace, rfl⟩,
          AbbreviationFault.message_ne .strayCharacter⟩
      · exact ⟨⟨place, hplace, rfl⟩, AbbreviationFault.message_ne .openField⟩
    · obtain ⟨hblames, t, -, hoffset, hlt, -⟩ := hparser tokens e htokens hparse
      obtain ⟨fault, place, rfl⟩ := hblames.exists_fault
      exact ⟨⟨t.start, Nat.le_of_lt hlt, hoffset⟩, fault.message_ne⟩
  · intro tokens
    exact Statement.Parser.stackedFrom_eq c.options.jsx [] {} tokens

example :
    expand {} "p[" =
      .error (AbbreviationFault.openAttributeSet.atOffset 1) := by
  have htokens : tokenize "p[" =
      .ok [⟨.literal "p", 0, 1⟩, ⟨.bracket .attributes true, 1, 2⟩] := by cbv
  have hparse : Statement.parse false
      [⟨.literal "p", 0, 1⟩, ⟨.bracket .attributes true, 1, 2⟩] =
      .error (AbbreviationFault.openAttributeSet.atOffset 1) := by cbv
  exact (expand_eq_error_iff {} "p[" _).2 (.inr ⟨_, htokens, hparse⟩)

end Scaffold

import Scaffold.Numeral
/-!
What can be wrong with an abbreviation, and how it is shown: a message, the
offset of the character it is about, and the source with a caret under that
character.
-/
namespace Scaffold

/-- The classes of errors that an abbreviation can raise. -/
inductive AbbreviationErrorKind
  | unexpectedCharacter
  | unexpectedToken
  | unclosedQuote
  | unclosedField
  | unclosedGroup
  | unclosedAttributeSet
  | unclosedText
  deriving DecidableEq, Repr

/-- An error in an abbreviation; offsets count characters. -/
structure AbbreviationError where
  kind : AbbreviationErrorKind
  message : String
  offset : Option Nat := none
  deriving DecidableEq, Repr

namespace AbbreviationError

def text (e : AbbreviationError) : String :=
  match e.offset with
  | some n => e.message ++ " at " ++ Numeral.text n
  | none => e.message

/-- The source, and under it a caret at the error's place with the message. A
place past the end of the source is shown at its end. -/
def annotate (e : AbbreviationError) (source : String) : String :=
  match e.offset with
  | some n =>
    source ++ "\n" ++ String.ofList
      (List.replicate (min n source.toList.length) ' ') ++ "^ " ++ e.message
  | none => source ++ "\n" ++ e.message

end AbbreviationError

/-- The faults that reading an abbreviation can find. -/
inductive AbbreviationFault
  | strayCharacter
  | strayToken (kind : String)
  | openQuote
  | openField
  | openGroup
  | openAttributeSet
  | openText
  deriving DecidableEq, Repr

namespace AbbreviationFault

/-- The class of error a fault belongs to. -/
def kind : AbbreviationFault → AbbreviationErrorKind
  | strayCharacter => .unexpectedCharacter
  | strayToken _ => .unexpectedToken
  | openQuote => .unclosedQuote
  | openField => .unclosedField
  | openGroup => .unclosedGroup
  | openAttributeSet => .unclosedAttributeSet
  | openText => .unclosedText

/-- The wording of a fault. -/
def message : AbbreviationFault → String
  | strayCharacter => "Unexpected character"
  | strayToken kind => "Unexpected \"" ++ kind ++ "\" token"
  | openQuote => "Unclosed quote"
  | openField => "Expecting \x7d"
  | openGroup => "Unclosed group"
  | openAttributeSet => "Unclosed attribute set"
  | openText => "Unclosed text"

def atOffset (fault : AbbreviationFault) (offset : Nat) : AbbreviationError :=
  ⟨fault.kind, fault.message, some offset⟩

end AbbreviationFault

end Scaffold

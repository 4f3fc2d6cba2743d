/-!
Cutting texts at a character, and putting them together.
-/
namespace Scaffold.Text

/-- The parts between the characters that pass the test, of which there is
always one more. -/
def splitChars (cut : Char → Bool) : List Char → List (List Char)
  | [] => [[]]
  | c :: cs =>
    match splitChars cut cs with
    | [] => [[c]]
    | part :: parts =>
      if cut c then [] :: part :: parts else (c :: part) :: parts

/-- The parts of a text between the occurrences of a character. -/
def splitAt (s : String) (separator : Char) : List String :=
  (splitChars (· == separator) s.toList).map String.ofList

/-- The texts one behind the other with a separator between them. -/
def join (separator : String) : List String → String
  | [] => ""
  | [s] => s
  | s :: rest => s ++ separator ++ join separator rest

theorem splitChars_ne_nil (cut : Char → Bool) (cs : List Char) :
    splitChars cut cs ≠ [] := by
  cases cs with
  | nil => simp [splitChars]
  | cons c cs => rw [splitChars]; split <;> (try split) <;> simp

end Scaffold.Text

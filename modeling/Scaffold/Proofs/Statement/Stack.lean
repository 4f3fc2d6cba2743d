import Scaffold.Statement.Parser
/-!
The walk over tokens with a stack of statements in place of a path: the root of
the tree, as a group, and above it every statement that the walk has descended
into.  Taking the tree off such a stack can go wrong, since what is left at the
bottom need not be a group; but at the bottom of every stack that stands for a
path there is the root, so the walk never fails in this way.  Main statement:
`stackedFrom_eq`.
-/
namespace Scaffold.Statement

namespace Stack

def push : List Statement → Statement → List Statement
  | [], _ => []
  | parent :: below, s => parent.append s :: below

/-- The stack without the statement at its top, which goes below the next one;
the last statement stays. -/
def climb : List Statement → List Statement
  | top :: parent :: below => push (parent :: below) top
  | stack => stack

/-- Climbs a number of levels. -/
def climbs (stack : List Statement) : Nat → List Statement
  | 0 => stack
  | n + 1 => climbs (climb stack) n

/-- The tree at the bottom of a stack, to which all above it is attached. -/
def finish (stack : List Statement) :
    Except AbbreviationError (List Statement) :=
  match climbs stack (stack.length - 1) with
  | [.group children _] => .ok children
  | _ =>
      .error { kind := .unexpectedToken, message := "Invalid statement tree" }

/-- The stack behind a statement, and the number of operators that lead
there. -/
def follow (stack : List Statement) (s : Statement) :
    List Token → List Statement × Nat
  | [] => (push stack s, 0)
  | t :: ts =>
    if t.isOperator .child then (s :: stack, 1)
    else if t.isOperator .sibling then (push stack s, 1)
    else
      let levels := ((t :: ts).takeWhile (·.isOperator .climb)).length
      (climbs (push stack s) levels, levels)

end Stack

/-- The stack that a path stands for: what is open on it, and the root. -/
def Path.stack (path : Path) : List Statement :=
  path.opened ++ [.group path.finished none]

namespace Path

theorem stack_attach (path : Path) (s : Statement) :
    (path.attach s).stack = Stack.push path.stack s := by
  obtain ⟨opened, finished⟩ := path
  cases opened with
  | nil => rfl
  | cons innermost outer => rfl

theorem stack_descend (path : Path) (s : Statement) :
    (path.descend s).stack = s :: path.stack := rfl

theorem stack_climb (path : Path) :
    path.climb.stack = Stack.climb path.stack := by
  obtain ⟨opened, finished⟩ := path
  cases opened with
  | nil => rfl
  | cons innermost outer =>
      rw [climb, stack_attach]
      cases outer with
      | nil => rfl
      | cons parent outer => rfl

theorem stack_climbs (path : Path) (n : Nat) :
    (path.climbs n).stack = Stack.climbs path.stack n := by
  induction n generalizing path with
  | zero => rfl
  | succ n ih => rw [climbs, ih, stack_climb, Stack.climbs]

theorem length_opened_climb (path : Path) :
    path.climb.opened.length = path.opened.length - 1 := by
  obtain ⟨opened, finished⟩ := path
  cases opened with
  | nil => rfl
  | cons innermost outer =>
      cases outer with
      | nil => rfl
      | cons parent outer => rfl

theorem length_opened_climbs (path : Path) (n : Nat) :
    (path.climbs n).opened.length = path.opened.length - n := by
  induction n generalizing path with
  | zero => rfl
  | succ n ih => rw [climbs, ih, length_opened_climb, Nat.sub_sub, Nat.add_comm]

/-- The root is at the bottom of the stack of a path, so there is a tree to take
off it. -/
theorem finish_stack (path : Path) :
    Stack.finish path.stack = .ok path.close := by
  have hlength : path.stack.length - 1 = path.opened.length := by simp [stack]
  have hopened : (path.climbs path.opened.length).opened = [] := by
    rw [← List.length_eq_zero_iff, length_opened_climbs, Nat.sub_self]
  rw [Stack.finish, hlength, ← stack_climbs, stack, hopened, close]
  rfl

theorem stack_follow (path : Path) (s : Statement) (ts : List Token) :
    Stack.follow path.stack s ts =
      ((Parser.follow path s ts).1.stack, (Parser.follow path s ts).2) := by
  cases ts with
  | nil => rw [Stack.follow, Parser.follow, stack_attach]
  | cons t ts =>
      rw [Stack.follow, Parser.follow]
      by_cases hchild : t.isOperator .child = true
      · rw [if_pos hchild, if_pos hchild, stack_descend]
      · rw [if_neg hchild, if_neg hchild]
        by_cases hsibling : t.isOperator .sibling = true
        · rw [if_pos hsibling, if_pos hsibling, stack_attach]
        · rw [if_neg hsibling, if_neg hsibling, stack_climbs, stack_attach]

end Path

namespace Parser

/-- Reads statements up to the end of the tokens, on a stack within the stacks
of open groups. -/
def stackedFrom (jsx : Bool) (groups : List (Token × List Statement))
    (stack : List Statement) (ts : List Token) :
    Except AbbreviationError (List Statement) :=
  match ts with
  | [] =>
    match Stack.finish stack, groups with
    | .error e, _ => .error e
    | .ok forest, [] => .ok forest
    | .ok _, (opener, _) :: _ =>
        .error (AbbreviationFault.openGroup.atOffset opener.start)
  | t :: rest =>
    match element? jsx (t :: rest) with
    | .error e => .error e
    | .ok (some (e, n)) =>
      let behind := rest.drop (n - 1)
      let (stack, m) := Stack.follow stack (.element e []) behind
      stackedFrom jsx groups stack (behind.drop m)
    | .ok none =>
      if t.isBracket .group true then
        stackedFrom jsx ((t, stack) :: groups) [.group [] none] rest
      else
        match Stack.finish stack, groups, t.isBracket .group false with
        | .error e, _, _ => .error e
        | .ok forest, (_, outer) :: groups, true =>
          let r := repeater? rest
          let behind := rest.drop (if r.isSome then 1 else 0)
          let (stack, m) := Stack.follow outer (.group forest r) behind
          stackedFrom jsx groups stack (behind.drop m)
        | .ok _, _, _ =>
            .error (AbbreviationFault.strayCharacter.atOffset t.start)
termination_by ts.length
decreasing_by
  all_goals simp only [List.length_drop, List.length_cons]
  all_goals omega

/-- On the stack of a path the walk over tokens goes as on the path, and its
trees can all be taken off. -/
theorem stackedFrom_eq (jsx : Bool) (groups : List OpenGroup) (path : Path)
    (ts : List Token) :
    stackedFrom jsx (groups.map fun g => (g.opener, g.path.stack))
      path.stack ts =
      statementsFrom jsx groups path ts := by
  -- Each statement uses up tokens, while groups come and go: so the induction
  -- is on the tokens.
  induction hlength : ts.length using Nat.strongRecOn
    generalizing groups path ts with
  | ind length ih =>
    subst hlength
    rw [stackedFrom.eq_def, statementsFrom.eq_def]
    cases ts with
    | nil =>
        rw [Path.finish_stack]
        cases groups with
        | nil => rfl
        | cons g groups => rfl
    | cons t rest =>
        dsimp only
        cases element? jsx (t :: rest) with
        | error e => rfl
        | ok found =>
            cases found with
            | some read =>
                obtain ⟨e, n⟩ := read
                dsimp only
                rw [Path.stack_follow]
                apply ih _ _ _ _ _ rfl
                simp only [List.length_drop, List.length_cons]
                omega
            | none =>
                dsimp only
                by_cases hopen : t.isBracket .group true = true
                · rw [if_pos hopen, if_pos hopen]
                  exact ih _ (by simp) (⟨t, path⟩ :: groups) {} rest rfl
                · rw [if_neg hopen, if_neg hopen, Path.finish_stack]
                  cases groups with
                  | nil => rfl
                  | cons g groups =>
                      cases t.isBracket .group false with
                      | false => rfl
                      | true =>
                          rw [List.map_cons]
                          dsimp only
                          rw [Path.stack_follow]
                          apply ih _ _ _ _ _ rfl
                          simp only [List.length_drop, List.length_cons]
                          omega

end Parser

end Scaffold.Statement

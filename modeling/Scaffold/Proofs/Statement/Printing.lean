import Mathlib.Data.List.Forall2
import Scaffold.Statement.Parser
/-!
A forest of named elements and groups written as tokens, in preorder: one line
for each statement, with its depth, and between two lines what leads from the
one depth to the other.  A group is a single line, for the forest in it has
depths of its own.
-/
namespace Scaffold

namespace Token

/-- A token of the given meaning that stands nowhere in particular. -/
def mark (kind : TokenKind) : Token := ⟨kind, 0, 0⟩

/-- The token means what another one means.  A part of a name is that very
token, since statements keep their names; where any other token stands in the
source is left open. -/
def Spells (t u : Token) : Prop :=
  t.kind = u.kind ∧ (u.isNamePart = true → t = u)

instance (t u : Token) : Decidable (t.Spells u) :=
  inferInstanceAs (Decidable (t.kind = u.kind ∧ (u.isNamePart = true → t = u)))

theorem spells_refl (t : Token) : t.Spells t := ⟨rfl, fun _ => rfl⟩

theorem Spells.eq {t u : Token} (h : t.Spells u) {text : String}
    (hkind : u.kind = .literal text) : t = u :=
  h.2 (by simp [isNamePart, hkind])

/-- What a printed statement begins with: a name, or the bracket of a group. -/
def BeginsStatement (t : Token) : Prop :=
  (∃ text, t.kind = .literal text) ∨ t.kind = .bracket .group true

theorem BeginsStatement.isOperator {t : Token} (ht : t.BeginsStatement)
    (op : Operator) : t.isOperator op = false := by
  rcases ht with ⟨text, h⟩ | h <;> simp [Token.isOperator, h]

end Token

/-- Tokens that read like others, wherever they stand. -/
abbrev Spelled (ts us : List Token) : Prop := List.Forall₂ Token.Spells ts us

theorem spelled_refl (ts : List Token) : Spelled ts ts :=
  List.forall₂_same.2 fun t _ => t.spells_refl

theorem spelled_append {ts us vs : List Token} (h : Spelled ts (us ++ vs)) :
    ∃ us' vs', ts = us' ++ vs' ∧ Spelled us' us ∧ Spelled vs' vs :=
  ⟨_, _, (List.take_append_drop us.length ts).symm,
    List.forall₂_take_append ts us vs h, List.forall₂_drop_append ts us vs h⟩

theorem spelled_mark {ts : List Token} {kind : TokenKind}
    (h : Spelled ts [.mark kind]) : ∃ t, ts = [t] ∧ t.kind = kind := by
  simp only [List.forall₂_cons_right_iff, List.forall₂_nil_right_iff] at h
  obtain ⟨t, _, ht, rfl, rfl⟩ := h
  exact ⟨t, rfl, ht.1⟩

theorem spelled_replicate {ts : List Token} {kind : TokenKind} {n : Nat}
    (h : Spelled ts (List.replicate n (.mark kind))) :
    ts.length = n ∧ ∀ t ∈ ts, t.kind = kind := by
  induction n generalizing ts with
  | zero =>
      obtain rfl := List.forall₂_nil_right_iff.1 h
      simp
  | succ n ih =>
      obtain ⟨t, us, ht, hus, rfl⟩ := List.forall₂_cons_right_iff.1 h
      obtain ⟨hlength, hkind⟩ := ih hus
      refine ⟨by rw [List.length_cons, hlength], ?_⟩
      intro u hu
      rcases List.mem_cons.1 hu with rfl | hu
      · exact ht.1
      · exact hkind u hu

/-- An element of which nothing is written but a name of one literal and perhaps
a repeater. -/
def ElementTokens.IsBare (e : ElementTokens) : Prop :=
  ∃ (name : Token) (text : String),
    name.kind = .literal text ∧
      e = { name := some [name], repeater := e.repeater }

namespace Statement

/-- Statements of which only names, repeaters and nesting are written. -/
inductive IsOutline : Statement → Prop
  | element {e : ElementTokens} {children : List Statement} (bare : e.IsBare)
      (below : ∀ s ∈ children, IsOutline s) : IsOutline (.element e children)
  | group {children : List Statement} {r : Option Repeater}
      (below : ∀ s ∈ children, IsOutline s) : IsOutline (.group children r)

/-- The tokens of one statement, less those of the statements below it, and its
depth. -/
structure Line where
  depth : Nat
  tokens : List Token

/-- What leads from a statement to the next one: down to its first child, on to
its sibling, or up by one level for each `^`. -/
def separator (depth next : Nat) : List Token :=
  if depth < next then [.mark (.operator .child)]
  else if depth = next then [.mark (.operator .sibling)]
  else List.replicate (depth - next) (.mark (.operator .climb))

def joinBehind (depth : Nat) : List Line → List Token
  | [] => []
  | l :: rest =>
      separator depth l.depth ++ (l.tokens ++ joinBehind l.depth rest)

/-- Lines one after another. -/
def join : List Line → List Token
  | [] => []
  | l :: rest => l.tokens ++ joinBehind l.depth rest

def repeaterTokens (r : Option Repeater) : List Token :=
  (r.map fun r => Token.mark (.repeater r)).toList

def headTokens (e : ElementTokens) : List Token :=
  e.name.getD [] ++ repeaterTokens e.repeater

def groupTokens (inner : List Token) (r : Option Repeater) : List Token :=
  .mark (.bracket .group true) ::
    (inner ++ .mark (.bracket .group false) :: repeaterTokens r)

mutual

def lines (depth : Nat) : Statement → List Line
  | .element e children =>
      ⟨depth, headTokens e⟩ :: forestLines (depth + 1) children
  | .group children r =>
      [⟨depth, groupTokens (join (forestLines 0 children)) r⟩]

def forestLines (depth : Nat) : List Statement → List Line
  | [] => []
  | s :: rest => lines depth s ++ forestLines depth rest

end

def print (forest : List Statement) : List Token := join (forestLines 0 forest)

/-- The first of the lines, if any, begins like a statement does. -/
def Readable (rest : List Line) : Prop :=
  ∀ l ∈ rest.head?, ∃ t more, l.tokens = t :: more ∧ t.BeginsStatement

/-- The lines of an outline come at its depth, and can be read. -/
theorem IsOutline.lines_eq_cons {s : Statement} (outline : s.IsOutline)
    (depth : Nat) (rest : List Line) :
    ∃ l more, lines depth s ++ rest = l :: more ∧ l.depth = depth ∧
    Readable (l :: more) := by
  cases outline with
  | @element e children bare below =>
      refine ⟨_, _, rfl, rfl, ?_⟩
      obtain ⟨name, text, hname, he⟩ := bare
      intro l hl
      obtain rfl := Option.some.inj hl
      exact ⟨name, repeaterTokens e.repeater, by rw [headTokens, he]; rfl,
        .inl ⟨text, hname⟩⟩
  | group below =>
      refine ⟨_, _, rfl, rfl, ?_⟩
      intro l hl
      obtain rfl := Option.some.inj hl
      exact ⟨_, _, rfl, .inr rfl⟩

end Statement

end Scaffold

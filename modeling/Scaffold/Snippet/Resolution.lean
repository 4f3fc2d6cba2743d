import Scaffold.Node.Unrolling
import Scaffold.Statement.Parser
import Scaffold.Token.Lexer
/-!
Replaces nodes that are named like snippets by the nodes of the snippets, over
and over. A snippet that is being expanded is not expanded again within itself,
nor is another name of the same body: each step inward uses up at least one
registered name, so resolution ends.
-/
namespace Scaffold

/-- The nodes of an abbreviation, with the number of iterations that made
them. -/
def Node.ofSource? (jsx : Bool) (s : Unrolling.Settings) (source : String) :
    Except AbbreviationError Unrolling.Outcome :=
  match tokenize source with
  | .error e => .error e
  | .ok tokens =>
    match Statement.parse jsx tokens with
    | .error e => .error e
    | .ok statements => .ok (unroll s statements)

theorem Node.ofSource?_eq_map (jsx : Bool) (s : Unrolling.Settings)
    (source : String) :
    Node.ofSource? jsx s source =
      (tokenize source >>= Statement.parse jsx).map (unroll s) := by
  rw [Node.ofSource?]
  cases tokenize source with
  | error e => rfl
  | ok tokens =>
    dsimp only [bind, Except.bind]
    cases Statement.parse jsx tokens <;> rfl

namespace Snippet

/-- The names of the snippets that are being expanded, the innermost first. -/
abbrev Stack := List String

namespace Registry

/-- Whether a name, or another one with the same body, is being expanded. -/
def isActive (r : Registry) (stack : Stack) (name body : String) : Bool :=
  stack.any fun key => key == name || r.get? key == some body

/-- The number of registered names that can still be expanded. -/
def unused (r : Registry) (stack : Stack) : Nat :=
  r.entries.countP fun e => !r.isActive stack e.1 e.2

theorem isActive_cons (r : Registry) (key : String) (stack : Stack)
    (name body : String) :
    r.isActive (key :: stack) name body =
      ((key == name || r.get? key == some body) ||
        r.isActive stack name body) := rfl

theorem mem_of_get? {r : Registry} {name body : String}
    (h : r.get? name = some body) : (name, body) ∈ r.entries := by
  rw [get?, List.lookup_eq_some_iff] at h
  obtain ⟨before, after, h, -⟩ := h
  rw [h]
  simp

/-- Expanding a name that is not active leaves fewer to expand. -/
theorem unused_cons_lt {r : Registry} {stack : Stack} {name body : String}
    (known : r.get? name = some body)
    (idle : r.isActive stack name body = false) :
    r.unused (name :: stack) < r.unused stack := by
  have sub : ∀ l : List (String × String), ∀ e ∈ l,
      r.isActive stack e.1 e.2 = false →
        r.isActive (name :: stack) e.1 e.2 = true →
      l.countP (fun e => !r.isActive (name :: stack) e.1 e.2) <
        l.countP (fun e => !r.isActive stack e.1 e.2) := by
    intro l
    have mono : ∀ l : List (String × String),
        l.countP (fun e => !r.isActive (name :: stack) e.1 e.2) ≤
          l.countP (fun e => !r.isActive stack e.1 e.2) := by
      intro l
      apply List.countP_mono_left
      intro e _ h
      simp only [isActive_cons, Bool.not_eq_true', Bool.or_eq_false_iff] at h ⊢
      exact h.2
    induction l with
    | nil => simp
    | cons x xs ih =>
      intro e he hidle hactive
      rcases List.mem_cons.1 he with rfl | he
      · have := mono xs
        simp [hidle, hactive]
        omega
      · have := ih e he hidle hactive
        simp only [List.countP_cons]
        have hx :
            (if (!r.isActive (name :: stack) x.1 x.2) = true then 1 else 0) ≤
            (if (!r.isActive stack x.1 x.2) = true then 1 else 0) := by
          rw [isActive_cons]
          cases r.isActive stack x.1 x.2 with
          | true => simp
          | false =>
            simp only [Bool.or_false]
            split
            · simp
            · simp
        omega
  exact sub r.entries (name, body) (mem_of_get? known) idle
    (by simp [isActive_cons])

end Registry

/-- What becomes of a node that may name a snippet. -/
inductive Resolution
  /-- No snippet has its name. -/
  | unknown
  /-- The snippet is being expanded further out. -/
  | cyclic
  | malformed (body : String) (error : AbbreviationError)
  | resolved (nodes : List Node)

/-- What resolving leaves besides nodes: warnings, and the repeater iterations
of snippets. -/
structure Log where
  warnings : List String := []
  iterations : Nat := 0

namespace Log

def append (a b : Log) : Log :=
  ⟨a.warnings ++ b.warnings, a.iterations + b.iterations⟩

def warn (message : String) : Log := { warnings := [message] }

end Log

/-- What is said of a body that is no abbreviation. -/
def malformedMessage (body : String) : String :=
  "Unable to parse \"" ++ body ++ "\" snippet"

/-- A top node of a snippet with what was written about the node that named
it. -/
def overlay (reverse : Bool) (own : Tag) (n : Node) : Node :=
  let t := n.tag
  { n with tag := { t with
      attributes := match own.attributes with
        | none => t.attributes
        | some mine =>
          some (if reverse then mine ++ t.attributeList
            else t.attributeList ++ mine)
      selfClosing := t.selfClosing || own.selfClosing
      value := own.value.or t.value
      copy := own.copy.or t.copy } }

/-- Nodes with more children in the deepest last node of the last one. -/
def graft (nodes children : List Node) : List Node :=
  Node.modifyLast (fun n => { n with children := n.children ++ children }) nodes

mutual

/-- Resolves a node, without its children, while the snippets of the stack are
being expanded. -/
def resolveTag (c : Config) (stack : Stack) (t : Tag) : Resolution × Log :=
  match t.name with
  | none => (.unknown, {})
  | some name =>
    match _known : c.snippets.get? name with
    | none => (.unknown, {})
    | some body =>
      if _active : c.snippets.isActive stack name body then (.cyclic, {})
      else
        match Node.ofSource? c.options.jsx
            { Unrolling.Settings.ofConfig c with text := none } body with
        | .error e => (.malformed body e, {})
        | .ok parsed =>
          let (nodes, log) := resolveNodes c (name :: stack) parsed.nodes
          (.resolved (nodes.map (overlay c.options.reverseAttributes t)),
            { log with iterations := parsed.iterations + log.iterations })
termination_by (c.snippets.unused stack, 0)
decreasing_by
  apply Prod.Lex.left
  exact Registry.unused_cons_lt _known (by simpa using _active)

/-- Resolves nodes and all below them. What was written below a node that named
a snippet comes below the deepest last node of the snippet. -/
def resolveNodes (c : Config) (stack : Stack) (nodes : List Node) :
    List Node × Log :=
  match nodes with
  | [] => ([], {})
  | ⟨tag, children⟩ :: rest =>
    let (outcome, outer) := resolveTag c stack tag
    let (below, inner) := resolveNodes c stack children
    let (behind, later) := resolveNodes c stack rest
    match outcome with
    | .resolved nodes =>
      (graft nodes below ++ behind, (outer.append inner).append later)
    | .malformed body _ =>
      (⟨tag, below⟩ :: behind,
        ((Log.warn (malformedMessage body)).append inner).append later)
    | .unknown | .cyclic => (⟨tag, below⟩ :: behind, inner.append later)
termination_by (c.snippets.unused stack, sizeOf nodes)
decreasing_by
  all_goals
    apply Prod.Lex.right
    simp
    try omega

end

end Snippet

end Scaffold

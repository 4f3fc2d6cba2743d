import Mathlib
import Scaffold.Proofs.Snippet.Halting
import Scaffold.Proofs.Snippet.Outcome
import Scaffold.Proofs.Unrolling.Guard
/-!
The snippets that are opened while a tree is resolved, and what they cost.  Each
opening reads its body anew, with a budget of its own, and the iterations of a
resolution are those of all openings together.  Every node may open a snippet,
each node of that snippet another one, and so on for as many levels as there are
names.  Main statements: `iterations_resolveNodes`, `length_opened_le`.
-/
namespace Scaffold

/-- The iterations that converting a source takes, if it can be read. -/
def Unrolling.iterationsIn (jsx : Bool) (s : Settings) (source : String) :
    Nat :=
  match Node.ofSource? jsx s source with
  | .ok outcome => outcome.iterations
  | .error _ => 0

namespace Snippet

mutual

/-- The bodies that are opened while a node, without its children, is
resolved. -/
def openedBy (c : Config) (stack : Stack) (t : Tag) : List String :=
  match t.name with
  | none => []
  | some name =>
    match _known : c.snippets.get? name with
    | none => []
    | some body =>
      if _active : c.snippets.isActive stack name body then []
      else
        match readBody c body with
        | .error _ => []
        | .ok parsed => body :: opened c (name :: stack) parsed.nodes
termination_by (c.snippets.unused stack, 0)
decreasing_by
  apply Prod.Lex.left
  exact Registry.unused_cons_lt _known (by simpa using _active)

def opened (c : Config) (stack : Stack) (nodes : List Node) : List String :=
  match nodes with
  | [] => []
  | ⟨tag, children⟩ :: rest =>
    openedBy c stack tag ++ opened c stack children ++ opened c stack rest
termination_by (c.snippets.unused stack, sizeOf nodes)
decreasing_by
  all_goals
    apply Prod.Lex.right
    simp
    try omega

end

/-- The iterations that reading a body takes, if it can be read. -/
def bodyIterations (c : Config) (body : String) : Nat :=
  Unrolling.iterationsIn c.options.jsx
    { Unrolling.Settings.ofConfig c with text := none } body

theorem bodyIterations_of_read {c : Config} {body : String}
    {parsed : Unrolling.Outcome} (h : readBody c body = .ok parsed) :
    bodyIterations c body = parsed.iterations := by
  rw [readBody] at h
  rw [bodyIterations, Unrolling.iterationsIn, h]

/-- A node either opens nothing, or one snippet and what its nodes open. -/
theorem openedBy_cases (c : Config) (stack : Stack) (t : Tag) :
    (openedBy c stack t = [] ∧ (resolveTag c stack t).2 = {}) ∨
      ∃ (name body : String) (parsed : Unrolling.Outcome),
        t.name = some name ∧ c.snippets.get? name = some body ∧
        c.snippets.isActive stack name body = false ∧
        readBody c body = .ok parsed ∧
        openedBy c stack t = body :: opened c (name :: stack) parsed.nodes ∧
        (resolveTag c stack t).2 =
          Log.append { iterations := parsed.iterations }
            (resolveNodes c (name :: stack) parsed.nodes).2 := by
  rw [openedBy, resolveTag]
  cases hname : t.name with
  | none => exact .inl ⟨rfl, rfl⟩
  | some name =>
      dsimp only
      cases hbody : c.snippets.get? name with
      | none => exact .inl ⟨rfl, rfl⟩
      | some body =>
          dsimp only
          by_cases hactive : c.snippets.isActive stack name body = true
          · rw [dif_pos hactive, dif_pos hactive]
            exact .inl ⟨rfl, rfl⟩
          · rw [dif_neg hactive, dif_neg hactive]
            cases hread : readBody c body with
            | error e =>
                refine .inl ⟨rfl, ?_⟩
                rw [readBody] at hread
                simp only [hread]
            | ok parsed =>
                have hidle : c.snippets.isActive stack name body = false := by
                  simpa using hactive
                refine .inr ⟨name, body, parsed, rfl, hbody, hidle,
                  hread, rfl, ?_⟩
                rw [readBody] at hread
                simp only [hread, Log.append, List.nil_append]

theorem openedBy_of_isOwn {c : Config} {stack : Stack} {t : Tag}
    (hown : isOwn c t = true) : openedBy c stack t = [] := by
  rcases openedBy_cases c stack t
    with ⟨hnone, -⟩ | ⟨name, body, parsed, hname, hbody, -⟩
  · exact hnone
  · rw [isOwn_eq_false hname hbody] at hown
    cases hown

/-- A name that is not active opens its snippet, if this can be read. -/
theorem openedBy_of_read {c : Config} {stack : Stack} {t : Tag}
    {name body : String} {parsed : Unrolling.Outcome}
    (hname : t.name = some name) (hbody : c.snippets.get? name = some body)
    (hidle : c.snippets.isActive stack name body = false)
    (hread : readBody c body = .ok parsed) :
    openedBy c stack t = body :: opened c (name :: stack) parsed.nodes := by
  rw [openedBy.eq_def, hname]
  dsimp only
  split
  · next hnone =>
      rw [hbody] at hnone
      cases hnone
  · next body' hbody' =>
      obtain rfl := Option.some.inj (hbody.symm.trans hbody')
      simp [hidle, hread]

/-- Only registered bodies are opened. -/
theorem mem_bodies_of_mem_opened {c : Config} {stack : Stack}
    {nodes : List Node} :
    ∀ body ∈ opened c stack nodes, body ∈ c.snippets.bodies := by
  induction stack, nodes using resolution_induction c with
  | nil stack =>
      rw [opened]
      simp
  | cons stack tag children rest expansion below behind =>
      rw [opened, List.forall_mem_append, List.forall_mem_append]
      refine ⟨⟨?_, below⟩, behind⟩
      rcases openedBy_cases c stack tag with
        ⟨hnone, -⟩ |
          ⟨name, body, parsed, hname, hbody, hidle, hread, hopened, -⟩
      · simp [hnone]
      · rw [hopened, List.forall_mem_cons]
        refine ⟨?_, expansion name body parsed hname hbody hidle hread⟩
        exact List.mem_dedup.2
          (List.mem_map_of_mem (Registry.mem_of_get? hbody))

/-- The iterations of a resolution are those of all bodies that it opens. -/
theorem iterations_resolveNodes (c : Config) (stack : Stack)
    (nodes : List Node) :
    (resolveNodes c stack nodes).2.iterations =
      ((opened c stack nodes).map (bodyIterations c)).sum := by
  induction stack, nodes using resolution_induction c with
  | nil stack => rw [resolveNodes, opened, List.map_nil, List.sum_nil]
  | cons stack tag children rest expansion below behind =>
      have hquiet : ∀ outcome : Resolution, outcome.log.iterations = 0 := by
        intro outcome
        cases outcome <;> rfl
      have htag : (resolveTag c stack tag).2.iterations =
          ((openedBy c stack tag).map (bodyIterations c)).sum := by
        rcases openedBy_cases c stack tag with
          ⟨hnone, hlog⟩ |
            ⟨name, body, parsed, hname, hbody, hidle, hread, hopened, hlog⟩
        · rw [hnone, hlog, List.map_nil, List.sum_nil]
        · rw [hopened, hlog, List.map_cons, List.sum_cons,
            bodyIterations_of_read hread,
            ← expansion name body parsed hname hbody hidle hread]
          rfl
      rw [Machine.resolveNodes_cons, opened, List.map_append, List.map_append,
        List.sum_append, List.sum_append, ← htag, ← below, ← behind]
      simp only [Log.append, hquiet, Nat.add_zero]

/-- The most openings that one node can lead to while a number of names can
still be expanded, if no snippet has more nodes than `width`. -/
def openingsFrom (width : Nat) : Nat → Nat
  | 0 => 0
  | unused + 1 => width * openingsFrom width unused + 1

theorem openingsFrom_le_succ (width unused : Nat) :
    openingsFrom width unused ≤ openingsFrom width (unused + 1) := by
  induction unused with
  | zero => exact Nat.zero_le _
  | succ unused ih => exact Nat.succ_le_succ (Nat.mul_le_mul_left width ih)

theorem openingsFrom_mono (width : Nat) : Monotone (openingsFrom width) :=
  monotone_nat_of_le_succ (openingsFrom_le_succ width)

/-- The nodes of a tree open no more snippets than they can lead to, on as many
levels as there are names left to expand. -/
theorem length_opened_le {c : Config} {width : Nat}
    (hwidth : ∀ body ∈ c.snippets.bodies, ∀ parsed,
      readBody c body = .ok parsed → Node.sizes parsed.nodes ≤ width)
    (stack : Stack) (nodes : List Node) :
    (opened c stack nodes).length ≤
      Node.sizes nodes * openingsFrom width (c.snippets.unused stack) := by
  induction stack, nodes using resolution_induction c with
  | nil stack =>
      rw [opened]
      exact Nat.zero_le _
  | cons stack tag children rest expansion below behind =>
      have htag : (openedBy c stack tag).length ≤
          openingsFrom width (c.snippets.unused stack) := by
        rcases openedBy_cases c stack tag with
          ⟨hnone, -⟩ |
            ⟨name, body, parsed, hname, hbody, hidle, hread, hopened, -⟩
        · rw [hnone]
          exact Nat.zero_le _
        · have hmem : body ∈ c.snippets.bodies :=
            List.mem_dedup.2 (List.mem_map_of_mem (Registry.mem_of_get? hbody))
          have hused := Registry.unused_cons_lt hbody hidle
          obtain ⟨left, hleft⟩ := Nat.exists_eq_add_of_lt hused
          have hmono : openingsFrom width (c.snippets.unused (name :: stack)) ≤
              openingsFrom width (c.snippets.unused (name :: stack) + left) :=
            openingsFrom_mono width (Nat.le_add_right _ left)
          rw [hopened, List.length_cons, hleft, openingsFrom]
          apply Nat.succ_le_succ
          calc (opened c (name :: stack) parsed.nodes).length
            _ ≤ Node.sizes parsed.nodes * openingsFrom width
                (c.snippets.unused (name :: stack)) :=
              expansion name body parsed hname hbody hidle hread
            _ ≤ width * openingsFrom width
                (c.snippets.unused (name :: stack) + left) :=
              Nat.mul_le_mul (hwidth body hmem parsed hread) hmono
      have hsizes : Node.sizes (⟨tag, children⟩ :: rest) =
          1 + Node.sizes children + Node.sizes rest := by
        rw [Node.sizes, Node.size, Nat.add_comm 1]
      rw [opened, List.length_append, List.length_append, hsizes, Nat.add_mul,
        Nat.add_mul, Nat.one_mul]
      exact Nat.add_le_add (Nat.add_le_add htag below) behind

end Snippet

end Scaffold

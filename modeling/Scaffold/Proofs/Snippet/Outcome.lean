import Scaffold.Proofs.Node.Preorder
import Scaffold.Proofs.Snippet.Machine
/-!
What the resolution of one node can come to, and how a resolution descends: into
the snippet of a node, into its children, and on to the nodes behind it.
Statements about whole resolutions are proved by `resolution_induction` and a
case analysis of `answers_resolveTag`.
-/
namespace Scaffold.Snippet

def readBody (c : Config) (body : String) :
    Except AbbreviationError Unrolling.Outcome :=
  Node.ofSource? c.options.jsx
    { Unrolling.Settings.ofConfig c with text := none } body

/-- Whether a tag is the abbreviation's own: no snippet has its name. -/
def isOwn (c : Config) (t : Tag) : Bool := (t.name.bind c.snippets.get?).isNone

/-- What resolving a tag comes to while the snippets of a stack are being
expanded. -/
inductive Answers (c : Config) (stack : Stack) (t : Tag) : Resolution → Prop
  | unknown (hown : isOwn c t = true) : Answers c stack t .unknown
  | cyclic {name body : String} (hname : t.name = some name)
      (hbody : c.snippets.get? name = some body)
      (hactive : c.snippets.isActive stack name body = true) :
      Answers c stack t .cyclic
  | malformed {name body : String} {e : AbbreviationError}
    (hname : t.name = some name)
      (hbody : c.snippets.get? name = some body)
      (hread : readBody c body = .error e) :
      Answers c stack t (.malformed body e)
  | resolved {name body : String} {parsed : Unrolling.Outcome}
    (hname : t.name = some name)
      (hbody : c.snippets.get? name = some body)
      (hidle : c.snippets.isActive stack name body = false)
      (hread : readBody c body = .ok parsed) :
      Answers c stack t (.resolved ((resolveNodes c (name :: stack)
        parsed.nodes).1.map (overlay c.options.reverseAttributes t)))

theorem isOwn_eq_false {c : Config} {t : Tag} {name body : String}
    (hname : t.name = some name) (hbody : c.snippets.get? name = some body) :
    isOwn c t = false := by
  simp [isOwn, hname, hbody]

theorem answers_resolveTag (c : Config) (stack : Stack) (t : Tag) :
    Answers c stack t (resolveTag c stack t).1 := by
  rw [resolveTag]
  cases hname : t.name with
  | none => exact .unknown (by simp [isOwn, hname])
  | some name =>
      dsimp only
      cases hbody : c.snippets.get? name with
      | none => exact .unknown (by simp [isOwn, hname, hbody])
      | some body =>
          dsimp only
          by_cases hactive : c.snippets.isActive stack name body = true
          · rw [dif_pos hactive]
            exact .cyclic hname hbody hactive
          · rw [dif_neg hactive]
            cases hread : readBody c body with
            | error e =>
                rw [readBody] at hread
                simp only [hread]
                exact .malformed hname hbody hread
            | ok parsed =>
                have hanswer :=
                  Answers.resolved hname hbody (by simpa using hactive) hread
                rw [readBody] at hread
                simp only [hread]
                exact hanswer

theorem resolveTag_of_isOwn {c : Config} {stack : Stack} {t : Tag}
    (hown : isOwn c t = true) : resolveTag c stack t = (.unknown, {}) := by
  rw [resolveTag]
  cases hname : t.name with
  | none => rfl
  | some name =>
      dsimp only
      cases hbody : c.snippets.get? name with
      | none => rfl
      | some body =>
          rw [isOwn_eq_false hname hbody] at hown
          cases hown

/-- A name that is not active gives way to the nodes of its snippet, if these
can be read. -/
theorem resolveTag_of_read {c : Config} {stack : Stack} {t : Tag}
    {name body : String} {parsed : Unrolling.Outcome}
    (hname : t.name = some name) (hbody : c.snippets.get? name = some body)
    (hidle : c.snippets.isActive stack name body = false)
    (hread : readBody c body = .ok parsed) :
    (resolveTag c stack t).1 =
      .resolved ((resolveNodes c (name :: stack) parsed.nodes).1.map
        (overlay c.options.reverseAttributes t)) := by
  rw [resolveTag.eq_def, hname]
  dsimp only
  split
  · next hnone =>
      rw [hbody] at hnone
      cases hnone
  · next body' hbody' =>
      obtain rfl := Option.some.inj (hbody.symm.trans hbody')
      rw [readBody] at hread
      simp only [hidle, hread]
      rfl

/-- Whatever holds of no nodes, and of a node with others behind it as soon as
it holds of the nodes of its snippet, of its children and of the nodes behind
it, holds of every resolution.  Each snippet uses up a name that was not
active. -/
@[elab_as_elim]
theorem resolution_induction (c : Config) {motive : Stack → List Node → Prop}
    (nil : ∀ stack, motive stack [])
    (cons : ∀ stack tag children rest, (∀ name body parsed, tag.name =
      some name → c.snippets.get? name = some body → c.snippets.isActive stack
      name body = false → readBody c body = .ok parsed →
      motive (name :: stack) parsed.nodes) → motive stack children →
      motive stack rest → motive stack (⟨tag, children⟩ :: rest))
    (stack : Stack) (nodes : List Node) : motive stack nodes := by
  cases nodes with
  | nil => exact nil stack
  | cons n rest =>
      obtain ⟨tag, children⟩ := n
      apply cons stack tag children rest
      · intro name body parsed _ hbody hidle _
        exact resolution_induction c nil cons (name :: stack) parsed.nodes
      · exact resolution_induction c nil cons stack children
      · exact resolution_induction c nil cons stack rest
termination_by (c.snippets.unused stack, sizeOf nodes)
decreasing_by
  · apply Prod.Lex.left
    exact Registry.unused_cons_lt hbody hidle
  all_goals
    apply Prod.Lex.right
    simp
    try omega

/-- No nodes are left exactly if each top node gave way to a snippet of no
nodes. -/
theorem resolveNodes_eq_nil_iff (c : Config) (stack : Stack)
    (nodes : List Node) :
    (resolveNodes c stack nodes).1 = [] ↔
      ∀ n ∈ nodes, (resolveTag c stack n.tag).1 = .resolved [] := by
  induction nodes with
  | nil => simp [resolveNodes]
  | cons n rest ih =>
      obtain ⟨tag, children⟩ := n
      rw [Machine.resolveNodes_cons, List.append_eq_nil_iff, ih,
        List.forall_mem_cons]
      apply and_congr_left'
      cases hanswer : (resolveTag c stack tag).1 with
      | resolved nodes => simp [Resolution.place, graft_eq_nil_iff]
      | unknown | cyclic | malformed body e => simp [Resolution.place]

end Scaffold.Snippet

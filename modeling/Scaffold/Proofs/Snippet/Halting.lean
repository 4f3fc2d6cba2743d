import Mathlib.Data.List.Dedup
import Mathlib.Data.List.Perm.Subperm
import Scaffold.Proofs.Snippet.Machine
/-!
Resolution ends on every registry and leaves the stack as it was.  The invariant
ties the stack to the frames: it is the names of the open expansions on top of
what the call was given, and since a snippet is entered only if neither its name
nor its body is active, these differ from each other in name and in body.  Main
statement: `resolution_halts`.
-/
namespace Scaffold.Snippet

/-- The different bodies of a registry. -/
def Registry.bodies (r : Registry) : List String :=
  (r.entries.map Prod.snd).dedup

/-- Registered names of different bodies are no more than there are bodies. -/
theorem Registry.length_le_bodies {r : Registry} {keys : List String}
    (registered : ∀ key ∈ keys, ∃ body, r.get? key = some body)
    (nodup : (keys.map r.get?).Nodup) : keys.length ≤ r.bodies.length := by
  have hsubset : keys.map r.get? ⊆ r.bodies.map some := by
    intro found hfound
    obtain ⟨key, hkey, rfl⟩ := List.mem_map.1 hfound
    obtain ⟨body, hbody⟩ := registered key hkey
    rw [hbody]
    refine List.mem_map_of_mem (List.mem_dedup.2 ?_)
    exact List.mem_map_of_mem (Registry.mem_of_get? hbody)
  calc keys.length = (keys.map r.get?).length := (List.length_map ..).symm
    _ ≤ (r.bodies.map some).length :=
      (List.subperm_of_subset nodup hsubset).length_le
    _ = r.bodies.length := List.length_map ..

/-- A name that is not active differs in name and body from all that are being
expanded. -/
theorem Registry.ne_of_isActive_eq_false {r : Registry} {stack : Stack}
    {name body : String} (idle : r.isActive stack name body = false)
    {key : String} (hkey : key ∈ stack) :
    key ≠ name ∧ r.get? key ≠ some body := by
  rw [isActive, List.any_eq_false] at idle
  have hidle := idle key hkey
  simpa using hidle

/-- What can be resolved: nodes with all below them, or the tag of a single
node. -/
inductive Call
  | nodes (nodes : List Node)
  | tag (t : Tag)

namespace Call

/-- The moment at which a call begins. -/
def start (stack : Stack) : Call → Machine
  | nodes ns => { control := .nodes ns [], stack }
  | tag t => { control := .tag t, stack }

/-- The moment at which a call has returned, with the answer and the log of the
resolver. -/
def finish (c : Config) (stack : Stack) : Call → Machine
  | nodes ns =>
    { control := .result (resolveNodes c stack ns).1, stack,
      log := (resolveNodes c stack ns).2 }
  | tag t =>
    { control := .outcome (resolveTag c stack t).1, stack,
      log := (resolveTag c stack t).2 }

end Call

namespace Machine

variable {c : Config} {base : Stack} {m n : Machine}

/-- What one step does to the stack and to the open expansions: nothing, or it
opens one of a name that is not active, or it closes the innermost one. -/
theorem next_stack (hnext : Next c m n) :
    (n.stack = m.stack ∧ openKeys n.frames = openKeys m.frames) ∨
      (∃ key body, c.snippets.get? key = some body ∧
        c.snippets.isActive m.stack key body = false ∧
        n.stack = key :: m.stack ∧ openKeys n.frames =
          key :: openKeys m.frames) ∨
      ∃ key, n.stack = m.stack.tail ∧ openKeys m.frames =
        key :: openKeys n.frames := by
  obtain ⟨control, frames, stack, log⟩ := m
  cases control with
  | nodes todo done =>
      match todo with
      | [] =>
          obtain rfl := Option.some.inj hnext
          exact .inl ⟨rfl, rfl⟩
      | ⟨tag, children⟩ :: rest =>
          obtain rfl := Option.some.inj hnext
          exact .inl ⟨rfl, rfl⟩
  | tag t =>
      obtain rfl := Option.some.inj hnext
      rcases enter_cases c t frames stack log with
        ⟨outcome, henter, -⟩ |
          ⟨name, body, parsed, -, hbody, hidle, -, henter, -⟩
      · rw [henter]
        exact .inl ⟨rfl, rfl⟩
      · rw [henter]
        exact .inr (.inl ⟨name, body, hbody, hidle, rfl, rfl⟩)
  | outcome outcome =>
      match frames with
      | .node tag children rest done :: frames =>
          obtain rfl := Option.some.inj hnext
          exact .inl ⟨rfl, rfl⟩
      | [] | .children .. :: _ | .expansion .. :: _ => cases hnext
  | result nodes =>
      match frames with
      | .children outcome tag rest done :: frames =>
          obtain rfl := Option.some.inj hnext
          exact .inl ⟨rfl, rfl⟩
      | .expansion key tag :: frames =>
          obtain rfl := Option.some.inj hnext
          exact .inr (.inr ⟨key, rfl, rfl⟩)
      | [] | .node .. :: _ => cases hnext

/-- The stack is what the call was given, under the names of the open
expansions; these are registered, and no two of them share a name or a body. -/
structure Balanced (c : Config) (base : Stack) (m : Machine) : Prop where
  stack_eq : m.stack = openKeys m.frames ++ base
  registered : ∀ key ∈ openKeys m.frames, ∃ body,
    c.snippets.get? key = some body
  keys_nodup : (openKeys m.frames).Nodup
  bodies_nodup : ((openKeys m.frames).map c.snippets.get?).Nodup

theorem Balanced.next (hm : Balanced c base m) (hnext : Next c m n) :
    Balanced c base n := by
  obtain ⟨hstack, hregistered, hkeys, hbodies⟩ := hm
  rcases next_stack hnext with
    ⟨hsame, hopen⟩ | ⟨key, body, hbody, hidle, hpush, hopen⟩ |
      ⟨key, hpop, hopen⟩
  · constructor
    · rw [hsame, hopen, hstack]
    · rw [hopen]
      exact hregistered
    · rw [hopen]
      exact hkeys
    · rw [hopen]
      exact hbodies
  · have hfresh : ∀ other ∈ openKeys m.frames,
        other ≠ key ∧ c.snippets.get? other ≠ some body := by
      intro other hother
      apply Registry.ne_of_isActive_eq_false hidle
      rw [hstack]
      exact List.mem_append_left base hother
    constructor
    · rw [hpush, hopen, hstack, List.cons_append]
    · rw [hopen]
      intro other hother
      rcases List.mem_cons.1 hother with rfl | hother
      · exact ⟨body, hbody⟩
      · exact hregistered other hother
    · rw [hopen, List.nodup_cons]
      exact ⟨fun hmem => (hfresh key hmem).1 rfl, hkeys⟩
    · rw [hopen, List.map_cons, List.nodup_cons]
      refine ⟨?_, hbodies⟩
      intro hmem
      obtain ⟨other, hother, hsame⟩ := List.mem_map.1 hmem
      exact (hfresh other hother).2 (hsame.trans hbody)
  · rw [hopen] at hstack hregistered hkeys hbodies
    constructor
    · rw [hpop, hstack, List.cons_append, List.tail_cons]
    · exact fun other hother =>
        hregistered other (List.mem_cons_of_mem key hother)
    · exact (List.nodup_cons.1 hkeys).2
    · rw [List.map_cons] at hbodies
      exact (List.nodup_cons.1 hbodies).2

theorem Balanced.runs (hm : Balanced c base m) (hruns : Runs c m n) :
    Balanced c base n := by
  induction hruns with
  | refl => exact hm
  | tail _ hnext ih => exact ih.next hnext

/-- A run that has come to an end is where every other run from its start is
bound to end. -/
theorem runs_of_step_eq_none {start final : Machine}
    (hfinal : Runs c start final) (hend : step c final = none)
    (hm : Runs c start m) : Runs c m final := by
  have hunique : Relator.RightUnique (Next c) :=
    fun _ _ _ hleft hright => Option.some.inj (hleft.symm.trans hright)
  rcases hm.total_of_right_unique hunique hfinal with hon | hback
  · exact hon
  · rcases hback.cases_head with rfl | ⟨next, hnext, -⟩
    · exact .refl
    · rw [Next, hend] at hnext
      cases hnext

/-- On every registry and every stack a call returns, whatever its outcome, with
the answer of the resolver and the stack it was given.  At each moment until
then, what was pushed since are the names of the open expansions, pairwise
different in name and in body, and so no more than there are different
bodies. -/
theorem resolution_halts (c : Config) (stack : Stack) (call : Call) :
    Runs c (call.start stack) (call.finish c stack) ∧
      step c (call.finish c stack) = none ∧
      (call.finish c stack).stack = stack ∧
      ∀ m, Runs c (call.start stack) m →
        Runs c m (call.finish c stack) ∧
          m.stack = openKeys m.frames ++ stack ∧
          (openKeys m.frames).Nodup ∧
          ((openKeys m.frames).map c.snippets.get?).Nodup ∧
          (openKeys m.frames).length ≤ c.snippets.bodies.length := by
  have hruns : Runs c (call.start stack) (call.finish c stack) := by
    cases call with
    | nodes ns =>
        have hrun := runs_nodes c ns [] [] stack {}
        rwa [List.nil_append, Log.empty_append] at hrun
    | tag t =>
        have hrun := runs_tag c t [] stack {}
        rwa [Log.empty_append] at hrun
  have hend : step c (call.finish c stack) = none := by
    cases call <;> rfl
  have hstack : (call.finish c stack).stack = stack := by
    cases call <;> rfl
  have hstart : Balanced c stack (call.start stack) := by
    cases call <;> exact ⟨rfl, by simp [openKeys, Call.start],
      by simp [openKeys, Call.start], by simp [openKeys, Call.start]⟩
  refine ⟨hruns, hend, hstack, ?_⟩
  intro m hm
  obtain ⟨hopen, hregistered, hkeys, hbodies⟩ := hstart.runs hm
  exact ⟨runs_of_step_eq_none hruns hend hm, hopen, hkeys, hbodies,
    Registry.length_le_bodies hregistered hbodies⟩

end Machine

end Scaffold.Snippet

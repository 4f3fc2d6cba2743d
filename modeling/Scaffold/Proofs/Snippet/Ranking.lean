import Mathlib
import Scaffold.Proofs.Snippet.Outcome
/-!
Registries whose snippets can be ranked, so that the names in a body rank lower
than the name of the body.  While such a registry is resolved, every name ahead
ranks no higher than some name in each of the bodies around it; it is therefore
none of their names, and has none of their bodies.  So no expansion is ever cut
short, and nothing is left to expand.  Main statement: `ranked_resolution`.
-/
namespace Scaffold.Snippet

/-- Every body can be read, and the snippets that it names rank lower than its
own name. -/
structure Ranked (c : Config) (rank : String → Nat) : Prop where
  reads : ∀ {name body}, c.snippets.get? name = some body →
    ∃ parsed, readBody c body = .ok parsed
  descends : ∀ {name body parsed}, c.snippets.get? name = some body →
    readBody c body = .ok parsed →
    ∀ inner ∈ Node.names parsed.nodes, (c.snippets.get? inner).isSome →
      rank inner < rank name

/-- A name ranks below the snippets of a stack: the body of each of them names a
snippet that ranks at least as high. -/
def Below (c : Config) (rank : String → Nat) (stack : Stack) (name : String) :
    Prop :=
  ∀ key ∈ stack, ∃ body parsed, c.snippets.get? key = some body ∧
    readBody c body = .ok parsed ∧
    ∃ inner ∈ Node.names parsed.nodes, (c.snippets.get? inner).isSome ∧
      rank name ≤ rank inner

/-- All snippets that a tag or nodes name rank below those of the stack. -/
def Ready (c : Config) (rank : String → Nat) (stack : Stack)
    (names : List String) : Prop :=
  ∀ name ∈ names, (c.snippets.get? name).isSome → Below c rank stack name

/-- No snippet is named. -/
def Settled (c : Config) (nodes : List Node) : Prop :=
  ∀ name ∈ Node.names nodes, c.snippets.get? name = none

section

variable {c : Config} {rank : String → Nat} {stack : Stack}

theorem ready_nil (names : List String) : Ready c rank [] names := by
  intro name _ _ key hkey
  cases hkey

theorem ready_cons {tag : Tag} {children rest : List Node} :
    Ready c rank stack (Node.names (⟨tag, children⟩ :: rest)) ↔
      Ready c rank stack tag.name.toList ∧
      Ready c rank stack (Node.names children) ∧
        Ready c rank stack (Node.names rest) := by
  simp only [Ready, Node.mem_names_cons, Option.mem_toList, or_imp, forall_and]

/-- A name below the stack is not active: a key of its name or body would name,
in its body, a snippet that ranks lower than the name and not lower. -/
theorem Ranked.isActive_eq_false (h : Ranked c rank) {name body : String}
    (hbody : c.snippets.get? name = some body)
    (hbelow : Below c rank stack name) :
    c.snippets.isActive stack name body = false := by
  rw [Registry.isActive, List.any_eq_false]
  intro key hkey hsame
  obtain ⟨body', parsed, hkeyBody, hread, inner, hinner, hknown, hle⟩ :=
    hbelow key hkey
  have hlower : rank inner < rank name := by
    rw [Bool.or_eq_true, beq_iff_eq, beq_iff_eq] at hsame
    rcases hsame with rfl | hsame
    · exact h.descends hkeyBody hread inner hinner hknown
    · obtain rfl := Option.some.inj (hkeyBody.symm.trans hsame)
      exact h.descends hbody hread inner hinner hknown
  omega

/-- What a body names is below the stack on which the body is expanded. -/
theorem Ranked.ready_body (h : Ranked c rank) {name body : String}
    {parsed : Unrolling.Outcome} (hbody : c.snippets.get? name = some body)
    (hread : readBody c body = .ok parsed) (hbelow : Below c rank stack name) :
    Ready c rank (name :: stack) (Node.names parsed.nodes) := by
  intro inner hinner hknown key hkey
  rcases List.mem_cons.1 hkey with rfl | hkey
  · exact ⟨body, parsed, hbody, hread, inner, hinner, hknown, Nat.le_refl _⟩
  · obtain ⟨body', parsed', hkeyBody, hread', upper, hupper,
        hupperKnown, hle⟩ := hbelow key hkey
    have hlower := h.descends hbody hread inner hinner hknown
    exact ⟨body', parsed', hkeyBody, hread', upper, hupper,
      hupperKnown, by omega⟩

/-- Below the stack a node is no snippet's, or gives way to the nodes of its
snippet. -/
theorem Ranked.answers (h : Ranked c rank) {t : Tag}
    (hready : Ready c rank stack t.name.toList) {outcome : Resolution}
    (hanswer : Answers c stack t outcome) :
    outcome = .unknown ∧ isOwn c t = true ∨
      ∃ name body parsed, t.name = some name ∧
      c.snippets.get? name = some body ∧
        c.snippets.isActive stack name body = false ∧
        readBody c body = .ok parsed ∧
        Below c rank stack name ∧
        outcome = .resolved ((resolveNodes c (name :: stack) parsed.nodes).1.map
          (overlay c.options.reverseAttributes t)) := by
  have hbelow : ∀ {name body}, t.name = some name →
      c.snippets.get? name = some body →
      Below c rank stack name := by
    intro name body hname hbody
    exact hready name (by simp [hname]) (by simp [hbody])
  cases hanswer with
  | unknown hown => exact .inl ⟨rfl, hown⟩
  | cyclic hname hbody hactive =>
      rw [h.isActive_eq_false hbody (hbelow hname hbody)] at hactive
      cases hactive
  | malformed hname hbody hread =>
      obtain ⟨parsed, hparsed⟩ := h.reads hbody
      rw [hread] at hparsed
      cases hparsed
  | @resolved name body parsed hname hbody hidle hread =>
      exact .inr ⟨name, body, parsed, hname, hbody, hidle, hread,
        hbelow hname hbody, rfl⟩

/-- Resolving nodes that are below the stack leaves no snippet to expand. -/
theorem Ranked.settled_resolveNodes (h : Ranked c rank) (nodes : List Node)
    (hready : Ready c rank stack (Node.names nodes)) :
    Settled c (resolveNodes c stack nodes).1 := by
  induction stack, nodes using resolution_induction c with
  | nil stack =>
      rw [resolveNodes]
      intro name hname
      cases hname
  | cons stack tag children rest expansion below behind =>
      obtain ⟨htag, hchildren, hrest⟩ := ready_cons.1 hready
      rw [Machine.resolveNodes_cons]
      intro name hname
      rw [Node.names_append, List.mem_append] at hname
      rcases hname with hfirst | hbehind
      · rcases h.answers htag (answers_resolveTag c stack tag) with
          ⟨houtcome, hown⟩ |
            ⟨key, body, parsed, hkey, hbody, hidle, hread, hbelow, houtcome⟩
        · rw [houtcome, Resolution.place, Node.mem_names_cons] at hfirst
          rcases hfirst with hname | hinner | hnone
          · simpa [isOwn, hname] using hown
          · exact below hchildren name hinner
          · cases hnone
        · rw [houtcome, Resolution.place] at hfirst
          rcases mem_names_graft hfirst with hinner | hinner
          · rw [names_map_overlay] at hinner
            exact expansion key body parsed hkey hbody hidle hread
              (h.ready_body hbody hread hbelow) name hinner
          · exact below hchildren name hinner
      · exact behind hrest name hbehind

end

/-- Where no snippet is named, there is nothing to resolve. -/
theorem Settled.resolveNodes_eq {c : Config} {stack : Stack} {nodes : List Node}
    (h : Settled c nodes) : resolveNodes c stack nodes = (nodes, {}) := by
  induction stack, nodes using resolution_induction c with
  | nil stack => rw [resolveNodes]
  | cons stack tag children rest _ below behind =>
      have hown : isOwn c tag = true := by
        cases hname : tag.name with
        | none => simp [isOwn, hname]
        | some name =>
            simp [isOwn, hname, h name (Node.mem_names_cons.2 (.inl hname))]
      have hbelow := below fun name hname =>
        h name (Node.mem_names_cons.2 (.inr (.inl hname)))
      have hbehind := behind fun name hname =>
        h name (Node.mem_names_cons.2 (.inr (.inr hname)))
      rw [Machine.resolveNodes_cons, resolveTag_of_isOwn hown, hbelow, hbehind]
      rfl

namespace Machine

variable {c : Config} {rank : String → Nat}

/-- What is left to do behind the current call ranks below the stack it will
find. -/
def FramesReady (c : Config) (rank : String → Nat) : List Frame → Stack → Prop
  | [], _ => True
  | .node _ children rest _ :: frames, stack =>
    Ready c rank stack (Node.names children) ∧
      Ready c rank stack (Node.names rest) ∧ FramesReady c rank frames stack
  | .children _ _ rest _ :: frames, stack =>
    Ready c rank stack (Node.names rest) ∧ FramesReady c rank frames stack
  | .expansion _ _ :: frames, stack => FramesReady c rank frames stack.tail

/-- What the current call is about ranks below the stack, and no call was
answered as cyclic. -/
def ControlReady (c : Config) (rank : String → Nat) (stack : Stack) :
    Control → Prop
  | .nodes todo _ => Ready c rank stack (Node.names todo)
  | .tag t => Ready c rank stack t.name.toList
  | .outcome outcome => outcome ≠ .cyclic
  | .result _ => True

/-- All that is still to be resolved ranks below the stack on which it will
be. -/
structure IsReady (c : Config) (rank : String → Nat) (m : Machine) : Prop where
  control : ControlReady c rank m.stack m.control
  frames : FramesReady c rank m.frames m.stack

/-- Each step keeps a machine ready: a snippet is entered only by a name below
the stack, and what its body names is below the stack that it is entered on. -/
theorem IsReady.next (h : Ranked c rank) {m n : Machine} (hm : IsReady c rank m)
    (hnext : Next c m n) : IsReady c rank n := by
  obtain ⟨control, frames, stack, log⟩ := m
  obtain ⟨hcontrol, hframes⟩ := hm
  cases control with
  | nodes todo done =>
      cases todo with
      | nil =>
          cases hnext
          exact ⟨trivial, hframes⟩
      | cons first rest =>
          obtain ⟨tag, children⟩ := first
          cases hnext
          obtain ⟨htag, hchildren, hrest⟩ := ready_cons.1 hcontrol
          exact ⟨htag, hchildren, hrest, hframes⟩
  | tag t =>
      -- The only step that can answer a node as cyclic, and the only one that
      -- adds to the stack.
      have hanswer := h.answers hcontrol (answers_resolveTag c stack t)
      have henters : enter c t frames stack log = n := Option.some.inj hnext
      rcases enter_cases c t frames stack log with
        ⟨outcome, henter, htag⟩ |
          ⟨name, body, parsed, hname, hbody, -, hread, henter, -⟩
      · rw [← henters, henter]
        refine ⟨?_, hframes⟩
        rw [htag] at hanswer
        rcases hanswer with ⟨rfl, -⟩ | ⟨_, _, _, -, -, -, -, -, rfl⟩
        · exact Resolution.noConfusion
        · exact Resolution.noConfusion
      · rw [← henters, henter]
        have hbelow : Below c rank stack name :=
          hcontrol name (by simp [hname]) (by simp [hbody])
        exact ⟨h.ready_body hbody hread hbelow, hframes⟩
  | outcome outcome =>
      cases frames with
      | nil => cases hnext
      | cons frame frames =>
          cases frame with
          | node tag children rest done =>
              cases hnext
              exact ⟨hframes.1, hframes.2⟩
          | children | expansion => cases hnext
  | result nodes =>
      cases frames with
      | nil => cases hnext
      | cons frame frames =>
          cases frame with
          | node => cases hnext
          | children outcome tag rest done =>
              cases hnext
              exact ⟨hframes.1, hframes.2⟩
          | expansion key tag =>
              cases hnext
              exact ⟨Resolution.noConfusion, hframes⟩

/-- Every moment of a run from a ready machine is ready. -/
theorem IsReady.runs (h : Ranked c rank) {m n : Machine} (hm : IsReady c rank m)
    (hrun : Runs c m n) : IsReady c rank n := by
  induction hrun with
  | refl => exact hm
  | tail _ hnext ih => exact ih.next h hnext

end Machine

/-- Resolving any tree with a ranked registry comes to an end, and at no moment
is a node answered as cyclic; no node of the result has the name of a snippet,
and resolving it again leaves it as it is. -/
theorem ranked_resolution {c : Config} {rank : String → Nat} (h : Ranked c rank)
    (nodes : List Node) :
    (∃ log, Machine.Runs c { control := .nodes nodes [], stack := [] }
      { control := .result (resolveNodes c [] nodes).1, stack := [], log }) ∧
    (∀ m, Machine.Runs c { control := .nodes nodes [], stack := [] } m →
      m.control ≠ .outcome .cyclic) ∧
    (∀ tag ∈ Node.preorders (resolveNodes c [] nodes).1, ∀ name,
      tag.name = some name →
      c.snippets.get? name = none) ∧
    resolveNodes c [] (resolveNodes c [] nodes).1 =
      ((resolveNodes c [] nodes).1, {}) := by
  have hsettled : Settled c (resolveNodes c [] nodes).1 :=
    h.settled_resolveNodes nodes (ready_nil _)
  have hstart :
      Machine.IsReady c rank { control := .nodes nodes [], stack := [] } :=
    ⟨ready_nil _, trivial⟩
  refine ⟨⟨_, Machine.runs_nodes c nodes [] [] [] {}⟩, ?_, ?_,
    hsettled.resolveNodes_eq⟩
  · intro m hrun hcyclic
    have hcontrol := (hstart.runs h hrun).control
    rw [hcyclic] at hcontrol
    exact hcontrol rfl
  · intro tag htag name hname
    exact hsettled name (List.mem_filterMap.2 ⟨tag, htag, hname⟩)

namespace RankingWitness

/-- A snippet within a snippet, and two names of one body. -/
def config : Config :=
  { snippets := { entries := [("card", "div>btn"), ("btn", "button"),
    ("press", "button")] } }

/-- A card is above the button in it. -/
def rank (name : String) : Nat := if name = "card" then 1 else 0

theorem readBody_card : readBody config "div>btn" =
    .ok ⟨[⟨{ name := some "div" }, [⟨{ name := some "btn" }, []⟩]⟩], 0⟩ := by
  rw [config]
  cbv

theorem readBody_button : readBody config "button" =
    .ok ⟨[⟨{ name := some "button" }, []⟩], 0⟩ := by
  rw [config]
  cbv

theorem mem_entries {name body : String}
    (h : config.snippets.get? name = some body) :
    name = "card" ∧ body = "div>btn" ∨ name ≠ "card" ∧ body = "button" := by
  have hmem := Registry.mem_of_get? h
  simp only [config, List.mem_cons, List.not_mem_nil, or_false, Prod.mk.injEq]
    at hmem
  rcases hmem with h | h | h <;> simp [h.1, h.2]

theorem ranked_config : Ranked config rank := by
  constructor
  · intro name body hbody
    rcases mem_entries hbody with ⟨-, rfl⟩ | ⟨-, rfl⟩
    · exact ⟨_, readBody_card⟩
    · exact ⟨_, readBody_button⟩
  · intro name body parsed hbody hread inner hinner hknown
    rcases mem_entries hbody with ⟨rfl, rfl⟩ | ⟨-, rfl⟩
    · rw [readBody_card] at hread
      cases hread
      have hnames : inner = "div" ∨ inner = "btn" := by
        simpa [Node.names] using hinner
      rcases hnames with rfl | rfl <;> decide
    · rw [readBody_button] at hread
      cases hread
      obtain rfl : inner = "button" := by simpa [Node.names] using hinner
      cases hknown

theorem resolveNodes_card :
    (resolveNodes config [] [⟨{ name := some "card" }, []⟩]).1 =
      [⟨{ name := some "div" }, [⟨{ name := some "button" }, []⟩]⟩] := by
  have hbtn : (resolveTag config ["card"] { name := some "btn" }).1 =
      .resolved [⟨{ name := some "button" }, []⟩] := by
    rw [resolveTag_of_read rfl rfl (by decide) readBody_button,
      Machine.resolveNodes_cons, resolveTag_of_isOwn (by decide), resolveNodes]
    rfl
  have hcard : (resolveTag config [] { name := some "card" }).1 =
      .resolved
        [⟨{ name := some "div" }, [⟨{ name := some "button" }, []⟩]⟩] := by
    rw [resolveTag_of_read rfl rfl (by decide) readBody_card,
      Machine.resolveNodes_cons, resolveTag_of_isOwn (by decide),
      Machine.resolveNodes_cons, hbtn, resolveNodes]
    rfl
  rw [Machine.resolveNodes_cons, hcard, resolveNodes]
  rfl

/-- A card is resolved to its elements, and these are left as they are. -/
theorem card_resolved_within_ranks :
    Ranked config rank ∧
    (resolveNodes config [] [⟨{ name := some "card" }, []⟩]).1 =
      [⟨{ name := some "div" }, [⟨{ name := some "button" }, []⟩]⟩] ∧
    resolveNodes config []
      [⟨{ name := some "div" }, [⟨{ name := some "button" }, []⟩]⟩] =
      ([⟨{ name := some "div" }, [⟨{ name := some "button" }, []⟩]⟩], {}) := by
  have hagain :=
    (ranked_resolution ranked_config [⟨{ name := some "card" }, []⟩]).2.2.2
  rw [resolveNodes_card] at hagain
  exact ⟨ranked_config, resolveNodes_card, hagain⟩

end RankingWitness

end Scaffold.Snippet

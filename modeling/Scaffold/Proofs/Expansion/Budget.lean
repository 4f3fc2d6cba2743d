import Mathlib
import Scaffold.Expansion
import Scaffold.Proofs.Snippet.Openings
import Scaffold.Proofs.Token.TextBody
/-!
The budget of iterations bounds each conversion of a source, not the expansion
as a whole: every snippet that is opened is converted with a budget of its own.
So an expansion may take the budget once for each conversion that has repeaters,
and it keeps to one budget if there is at most one. How many conversions there
are is bounded by the source and the registry.  Main statement:
`tree_iterations`.
-/
namespace Scaffold

namespace Statement

def repeatersIn (jsx : Bool) (source : String) : Nat :=
  match tokenize source >>= parse jsx with
  | .ok statements => repeaterCounts statements
  | .error _ => 0

def elementsIn (jsx : Bool) (source : String) : Nat :=
  match tokenize source >>= parse jsx with
  | .ok statements => elementCounts statements
  | .error _ => 0

end Statement

namespace Unrolling

/-- A conversion takes the budget only if it has repeaters, and one iteration
more for each of them. -/
theorem iterationsIn_le (jsx : Bool) (s : Settings) (source : String) :
    iterationsIn jsx s source ≤
      max 1 s.maxRepeat * (if 0 < Statement.repeatersIn jsx source then
        1 else 0) +
        Statement.repeatersIn jsx source := by
  rw [iterationsIn, Node.ofSource?_eq_map, Statement.repeatersIn]
  cases tokenize source >>= Statement.parse jsx with
  | error e => exact Nat.zero_le _
  | ok statements => exact iterations_unroll_le s statements

/-- The iterations of a conversion bound its nodes. -/
theorem sizes_ofSource?_le {jsx : Bool} {s : Settings} {source : String}
    {outcome : Outcome} (h : Node.ofSource? jsx s source = .ok outcome) :
    Node.sizes outcome.nodes ≤ Statement.elementsIn jsx source *
      (max 1 s.maxRepeat + Statement.repeatersIn jsx source) := by
  rw [Node.ofSource?_eq_map] at h
  rw [Statement.repeatersIn, Statement.elementsIn]
  cases hread : tokenize source >>= Statement.parse jsx with
  | error e =>
      rw [hread] at h
      cases h
  | ok statements =>
      rw [hread] at h
      cases h
      have hiterations := iterations_unroll_le s statements
      refine Nat.le_trans (sizes_unroll_le s statements)
        (Nat.mul_le_mul_left _ ?_)
      dsimp only
      split at hiterations <;> omega

end Unrolling

namespace Expansion

def openings (c : Config) (source : String) : List String :=
  match Node.ofSource? c.options.jsx (.ofConfig c) source with
  | .ok unrolled => Snippet.opened c [] unrolled.nodes
  | .error _ => []

/-- The sources that an expansion converts: its own, and each body that it
opens. -/
def conversions (c : Config) (source : String) : List String :=
  source :: openings c source

def repeatingConversions (c : Config) (source : String) : Nat :=
  (conversions c source).countP fun converted =>
    0 < Statement.repeatersIn c.options.jsx converted

/-- The number of repeaters that are written in the bodies of a registry. -/
def registryRepeaters (c : Config) : Nat :=
  (c.snippets.bodies.map (Statement.repeatersIn c.options.jsx)).sum

section Costs

variable {sources : List String} {iterations repeaters : String → Nat}
    {budget bound : Nat}

/-- Each conversion with repeaters may take the budget. -/
theorem sum_iterations_le
    (h : ∀ x, iterations x ≤ budget * (if 0 < repeaters x then 1 else 0) +
      repeaters x) :
    (sources.map iterations).sum ≤
      budget * sources.countP (fun x => 0 < repeaters x) +
        (sources.map repeaters).sum := by
  induction sources with
  | nil => exact Nat.zero_le _
  | cons x sources ih =>
      have hfirst := h x
      simp only [List.map_cons, List.sum_cons, List.countP_cons, Nat.mul_add,
        decide_eq_true_eq]
      omega

/-- If at most one conversion has repeaters, its own are all there are. -/
theorem sum_repeaters_le
    (hcount : sources.countP (fun x => 0 < repeaters x) ≤ 1)
    (hbound : ∀ x ∈ sources, repeaters x ≤ bound) :
    (sources.map repeaters).sum ≤ bound := by
  induction sources with
  | nil => exact Nat.zero_le _
  | cons x sources ih =>
      obtain ⟨hfirst, hrest⟩ := List.forall_mem_cons.1 hbound
      rw [List.countP_cons] at hcount
      rw [List.map_cons, List.sum_cons]
      by_cases hx : repeaters x = 0
      · rw [hx, Nat.zero_add]
        exact ih (by omega) hrest
      · have hcounted : decide (0 < repeaters x) = true :=
          decide_eq_true (by omega)
        rw [if_pos hcounted] at hcount
        have hnone : sources.countP (fun x => 0 < repeaters x) = 0 := by omega
        have hzero : (sources.map repeaters).sum = 0 := by
          apply List.sum_eq_zero
          simpa using hnone
        omega

end Costs

theorem iterations_tree {c : Config} {source : String}
    {e : Expansion (List Node)} (h : tree c source = .ok e) :
    e.iterations = Unrolling.iterationsIn c.options.jsx (.ofConfig c) source +
      ((openings c source).map (Snippet.bodyIterations c)).sum := by
  rw [tree, resolve] at h
  rw [Unrolling.iterationsIn, openings]
  cases hread : Node.ofSource? c.options.jsx (.ofConfig c) source with
  | error fault =>
      rw [hread] at h
      cases h
  | ok unrolled =>
      rw [hread] at h
      cases h
      dsimp only
      rw [Snippet.iterations_resolveNodes]

variable (c : Config) (source : String)

/-- The conversions together take the budget for each one that has repeaters. -/
theorem sum_conversions_le :
    Unrolling.iterationsIn c.options.jsx (.ofConfig c) source +
        ((openings c source).map (Snippet.bodyIterations c)).sum ≤
      max 1 c.maxRepeat * repeatingConversions c source +
        ((conversions c source).map
          (Statement.repeatersIn c.options.jsx)).sum := by
  have hsource := Unrolling.iterationsIn_le c.options.jsx (.ofConfig c) source
  have hbodies : ((openings c source).map (Snippet.bodyIterations c)).sum ≤ _ :=
    sum_iterations_le fun body => Unrolling.iterationsIn_le c.options.jsx
      { Unrolling.Settings.ofConfig c with text := none } body
  simp only [Unrolling.Settings.ofConfig] at hsource hbodies
  simp only [repeatingConversions, conversions, List.map_cons,
    List.sum_cons, List.countP_cons, Nat.mul_add, decide_eq_true_eq,
    Unrolling.Settings.ofConfig]
  omega

theorem mem_bodies_of_mem_openings :
    ∀ body ∈ openings c source, body ∈ c.snippets.bodies := by
  rw [openings]
  split
  · exact Snippet.mem_bodies_of_mem_opened
  · simp

/-- No conversion has more repeaters than are written in its source and in the
registry. -/
theorem repeatersIn_le {converted : String}
    (h : converted ∈ conversions c source) :
    Statement.repeatersIn c.options.jsx converted ≤
      Statement.repeatersIn c.options.jsx source + registryRepeaters c := by
  rcases List.mem_cons.1 h with rfl | hopening
  · exact Nat.le_add_right ..
  · have hbody := mem_bodies_of_mem_openings c source converted hopening
    have hle : Statement.repeatersIn c.options.jsx converted ≤
        registryRepeaters c :=
      List.le_sum_of_mem (List.mem_map_of_mem hbody)
    exact Nat.le_trans hle (Nat.le_add_left ..)

/-- Only the source itself can have repeaters if the registry has none. -/
theorem repeatingConversions_le_one (h : registryRepeaters c = 0) :
    repeatingConversions c source ≤ 1 := by
  have hnone : (openings c source).countP
      (fun converted => 0 < Statement.repeatersIn c.options.jsx converted) =
        0 := by
    rw [List.countP_eq_zero]
    intro body hbody
    have hle : Statement.repeatersIn c.options.jsx body ≤ registryRepeaters c :=
      List.le_sum_of_mem
        (List.mem_map_of_mem (mem_bodies_of_mem_openings c source body hbody))
    simp only [decide_eq_true_eq]
    omega
  rw [repeatingConversions, conversions, List.countP_cons, hnone]
  split <;> omega

/-- How many snippets are opened is bounded by the source and the registry. -/
theorem length_openings_le {width : Nat}
    (hwidth : ∀ body ∈ c.snippets.bodies,
      Statement.elementsIn c.options.jsx body *
      (max 1 c.maxRepeat + Statement.repeatersIn c.options.jsx body) ≤ width) :
    (openings c source).length ≤ Statement.elementsIn c.options.jsx source *
        (max 1 c.maxRepeat + Statement.repeatersIn c.options.jsx source) *
      Snippet.openingsFrom width c.snippets.size := by
  have hbodies : ∀ body ∈ c.snippets.bodies, ∀ parsed,
      Snippet.readBody c body = .ok parsed →
      Node.sizes parsed.nodes ≤ width := by
    intro body hbody parsed hread
    exact Nat.le_trans (Unrolling.sizes_ofSource?_le hread) (hwidth body hbody)
  have hnames : c.snippets.unused [] = c.snippets.size := by
    rw [Snippet.Registry.unused, Snippet.Registry.size, List.countP_eq_length]
    exact fun _ _ => rfl
  rw [openings]
  split
  · next unrolled hread =>
      have hopened := Snippet.length_opened_le hbodies [] unrolled.nodes
      rw [hnames] at hopened
      exact Nat.le_trans hopened
        (Nat.mul_le_mul_right _ (Unrolling.sizes_ofSource?_le hread))
  · exact Nat.zero_le _

/-- The iterations of an expansion are those of its conversions, and at most the
budget for each conversion with repeaters and one for each repeater.  So one
budget and the repeaters that are written bound the expansion if at most one of
its conversions has repeaters, as when the registry has none.  The conversions
themselves are bounded by the source and the registry. -/
theorem tree_iterations {c : Config} {source : String}
    {e : Expansion (List Node)} (h : tree c source = .ok e) :
    e.iterations = Unrolling.iterationsIn c.options.jsx (.ofConfig c) source +
        ((openings c source).map (Snippet.bodyIterations c)).sum ∧
    e.iterations ≤ max 1 c.maxRepeat * repeatingConversions c source +
        ((conversions c source).map (Statement.repeatersIn c.options.jsx)).sum ∧
    (repeatingConversions c source ≤ 1 → e.iterations ≤
      max 1 c.maxRepeat +
        (Statement.repeatersIn c.options.jsx source + registryRepeaters c)) ∧
    (registryRepeaters c = 0 → repeatingConversions c source ≤ 1) ∧
    ∀ width, (∀ body ∈ c.snippets.bodies,
      Statement.elementsIn c.options.jsx body *
        (max 1 c.maxRepeat + Statement.repeatersIn c.options.jsx body) ≤
          width) →
      (openings c source).length ≤ Statement.elementsIn c.options.jsx source *
          (max 1 c.maxRepeat + Statement.repeatersIn c.options.jsx source) *
        Snippet.openingsFrom width c.snippets.size := by
  have htotal := iterations_tree h
  have hsum := sum_conversions_le c source
  rw [← htotal] at hsum
  refine ⟨htotal, hsum, ?_, repeatingConversions_le_one c source,
    fun width hwidth => length_openings_le c source hwidth⟩
  intro hone
  have hrepeaters := sum_repeaters_le hone fun _ => repeatersIn_le c source
  have hbudget : max 1 c.maxRepeat * repeatingConversions c source ≤
      max 1 c.maxRepeat * 1 :=
    Nat.mul_le_mul_left _ hone
  omega

namespace BudgetWitness

open Lexer

def plain : Config :=
  { snippets := { entries := [("p", "b")] }, maxRepeat := 2 }

/-- One snippet of two copies, and a budget of two iterations. -/
def config : Config :=
  { snippets := { entries := [("x", "p*2")] }, maxRepeat := 2 }

/-- A copy of the snippet's element. -/
def item (value : Nat) : Node :=
  ⟨{ name := some "p", copy := some ⟨2, value, false⟩ }, []⟩

theorem jsx_plain : plain.options.jsx = false := rfl

theorem jsx_config : config.options.jsx = false := rfl

theorem parse_twice :
    (tokenize "p*2" >>= Statement.parse false) =
      .ok [.element { name := some [⟨.literal "p", 0, 1⟩],
                      repeater := some ⟨2, false⟩ } []] := by
  have hname : lexeme? {} none 0 "p*2".toList =
      .ok (some { kind := .literal "p", length := 1, context := {} }) := rfl
  have hcount : lexeme? {} (some 'p') 1 "*2".toList =
      .ok (some { kind := .repeater ⟨2, false⟩, length := 2, context := {} }) :=
    rfl
  have htokens := tokensFrom_of_lexeme? (by simp) hname
    (tokensFrom_of_lexeme? (by simp) hcount (by rw [tokensFrom]; rfl))
  rw [tokenize, htokens]
  cbv

theorem repeatersIn_twice : Statement.repeatersIn false "p*2" = 1 := by
  rw [Statement.repeatersIn, parse_twice]
  rfl

/-- Two snippets are opened, and the only repeater is the source's. -/
theorem tree_iterations_once :
    ∃ e, tree plain "p*2" = .ok e ∧ registryRepeaters plain = 0 ∧
      repeatingConversions plain "p*2" ≤ 1 ∧ e.iterations ≤ 3 ∧
      (openings plain "p*2").length ≤ 3 := by
  have hsome : ∃ e, tree plain "p*2" = .ok e := by
    rw [tree, resolve, Node.ofSource?_eq_map, jsx_plain, parse_twice]
    exact ⟨_, rfl⟩
  have hbody : Statement.repeatersIn false "b" = 0 ∧
      Statement.elementsIn false "b" = 1 :=
    ⟨by cbv, by cbv⟩
  have helements : Statement.elementsIn false "p*2" = 1 := by
    rw [Statement.elementsIn, parse_twice]
    rfl
  have hbodies : plain.snippets.bodies = ["b"] := by decide
  have hregistry : registryRepeaters plain = 0 := by
    rw [registryRepeaters, hbodies, jsx_plain, List.map_singleton,
      List.sum_singleton, hbody.1]
  obtain ⟨e, he⟩ := hsome
  obtain ⟨-, -, hcap, hone, hopenings⟩ := tree_iterations he
  rw [jsx_plain, repeatersIn_twice, hregistry] at hcap
  rw [hbodies, jsx_plain, helements, repeatersIn_twice] at hopenings
  refine ⟨e, he, hregistry, hone hregistry, hcap (hone hregistry),
    hopenings 2 ?_⟩
  simp [hbody, plain]

theorem readBody_twice :
    Snippet.readBody config "p*2" = .ok ⟨[item 0, item 1], 2⟩ := by
  rw [Snippet.readBody, Node.ofSource?_eq_map, jsx_config, parse_twice]
  rfl

theorem read_source : Node.ofSource? false (.ofConfig config) "x+x" =
    .ok ⟨[⟨{ name := some "x" }, []⟩, ⟨{ name := some "x" }, []⟩], 0⟩ := by
  rw [config]
  cbv

theorem openings_source : openings config "x+x" = ["p*2", "p*2"] := by
  have hitem : ∀ value, Snippet.openedBy config ["x"]
      { name := some "p", copy := some ⟨2, value, false⟩ } = [] :=
    fun _ => Snippet.openedBy_of_isOwn rfl
  have hbody : Snippet.openedBy config [] { name := some "x" } = ["p*2"] := by
    rw [Snippet.openedBy_of_read rfl rfl rfl readBody_twice]
    simp only [item, Snippet.opened, hitem, List.append_nil]
  rw [openings, jsx_config, read_source]
  simp [Snippet.opened, hbody]

theorem repeatersIn_source : Statement.repeatersIn false "x+x" = 0 := by
  cbv

theorem registryRepeaters_config : registryRepeaters config = 1 := by
  have hbodies : config.snippets.bodies = ["p*2"] := by decide
  rw [registryRepeaters, hbodies, List.map_singleton, List.sum_singleton]
  exact repeatersIn_twice

theorem exists_tree : ∃ e, tree config "x+x" = .ok e ∧ e.iterations = 4 := by
  have hsome : ∃ e, tree config "x+x" = .ok e := by
    rw [tree, resolve, jsx_config, read_source]
    exact ⟨_, rfl⟩
  obtain ⟨e, he⟩ := hsome
  have hsource : Unrolling.iterationsIn false (.ofConfig config) "x+x" = 0 := by
    rw [Unrolling.iterationsIn, read_source]
  refine ⟨e, he, ?_⟩
  rw [iterations_tree he, jsx_config, hsource, openings_source]
  simp [Snippet.bodyIterations_of_read readBody_twice]

/-- Two snippets take more than one budget and the repeaters that are
written. -/
theorem tree_exceeds_budget :
    ∃ e, tree config "x+x" = .ok e ∧ e.iterations = 4 ∧
      ¬ e.iterations ≤ max 1 config.maxRepeat +
        (Statement.repeatersIn config.options.jsx "x+x" +
          registryRepeaters config) := by
  obtain ⟨e, he, hiterations⟩ := exists_tree
  have hbudget : config.maxRepeat = 2 := rfl
  refine ⟨e, he, hiterations, ?_⟩
  rw [hiterations, hbudget, jsx_config, repeatersIn_source,
    registryRepeaters_config]
  decide

end BudgetWitness

end Expansion

end Scaffold

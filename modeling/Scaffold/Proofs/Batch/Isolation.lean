import Scaffold.Proofs.Batch.Report
/-!
Requests that are refused for their names.  A refused request asks nothing of
the file system, so a batch leaves behind the same files as the batch without
its refused requests, and the same report but for one failure more in the place
of each of them.  Main statement: `generateAll_filter_isNamed`.
-/
namespace Scaffold.Component

namespace Request

def isNamed (r : Request) : Bool := (nameFault? r.name).isNone

def refusal (r : Request) (fault : NameFault) : Outcome :=
  ⟨r.name, .error (.validation fault.message), []⟩

variable {r : Request} {fault : NameFault}

theorem filter_isNamed_of_some (h : nameFault? r.name = some fault)
    (requests : List Request) :
    (r :: requests).filter (·.isNamed) = requests.filter (·.isNamed) := by
  simp [isNamed, h]

theorem filter_isNamed_of_none (h : nameFault? r.name = none)
    (requests : List Request) :
    (r :: requests).filter (·.isNamed) = r :: requests.filter (·.isNamed) := by
  simp [isNamed, h]

end Request

/-- The outcomes of all requests, made from those of the named ones. -/
def withRefusals : List Request → List Outcome → List Outcome
  | [], _ => []
  | r :: requests, outcomes =>
    match nameFault? r.name, outcomes with
    | some fault, outcomes => r.refusal fault :: withRefusals requests outcomes
    | none, o :: outcomes => o :: withRefusals requests outcomes
    | none, [] => []

section

variable {m : Type → Type} [Monad m] [FileSystem m]

theorem generate_of_nameFault? (c : Config) {r : Request} {fault : NameFault}
    (h : nameFault? r.name = some fault) :
    (generate c r : m Outcome) = pure (r.refusal fault) := by
  rw [generate, Request.render, h]
  rfl

/-- A refused request takes no step, wherever it stands among the others. -/
theorem generateEach_eq_withRefusals [LawfulMonad m] (c : Config)
    (requests : List Request) :
    (generateEach c requests : m (List Outcome)) =
      withRefusals requests <$> generateEach c
        (requests.filter (·.isNamed)) := by
  induction requests with
  | nil => simp [generateEach, withRefusals]
  | cons r requests ih =>
      cases hname : nameFault? r.name with
      | some fault =>
          rw [Request.filter_isNamed_of_some hname, generateEach,
            generate_of_nameFault? c hname, ih]
          simp [withRefusals, hname]
      | none =>
          rw [Request.filter_isNamed_of_none hname, generateEach,
            generateEach, ih]
          simp [withRefusals, hname]

end

/-- Outcomes of the named ones among some requests, and those of all of them. -/
inductive Completes : List Request → List Outcome → List Outcome → Prop
  | nil : Completes [] [] []
  | refused {r : Request} {fault : NameFault} {requests : List Request}
      {outcomes full : List Outcome} (fault_of : nameFault? r.name = some fault)
      (rest : Completes requests outcomes full) :
      Completes (r :: requests) outcomes (r.refusal fault :: full)
  | named {r : Request} {o : Outcome} {requests : List Request}
    {outcomes full : List Outcome}
      (faultless : nameFault? r.name = none) (component : o.component = r.name)
      (rest : Completes requests outcomes full) :
      Completes (r :: requests) (o :: outcomes) (o :: full)

theorem completes_withRefusals {requests : List Request}
    {outcomes : List Outcome}
    (hnames : outcomes.map (·.component) =
      (requests.filter (·.isNamed)).map (·.name)) :
    Completes requests outcomes (withRefusals requests outcomes) := by
  induction requests generalizing outcomes with
  | nil =>
      obtain rfl : outcomes = [] := by simpa using hnames
      exact .nil
  | cons r requests ih =>
      cases hname : nameFault? r.name with
      | some fault =>
          rw [Request.filter_isNamed_of_some hname] at hnames
          have hfull : withRefusals (r :: requests) outcomes =
              r.refusal fault :: withRefusals requests outcomes := by
            simp [withRefusals, hname]
          rw [hfull]
          exact .refused hname (ih hnames)
      | none =>
          rw [Request.filter_isNamed_of_none hname, List.map_cons] at hnames
          obtain ⟨o, rest, rfl, hcomponent, hrest⟩ :=
            List.map_eq_cons_iff.1 hnames
          have hfull : withRefusals (r :: requests) (o :: rest) =
              o :: withRefusals requests rest := by
            simp [withRefusals, hname]
          rw [hfull]
          exact .named hname hcomponent (ih hrest)

namespace Completes

variable {requests : List Request} {outcomes full : List Outcome}

/-- Nothing is generated or written for a refused request. -/
theorem generated_eq (h : Completes requests outcomes full) :
    (BatchReport.ofOutcomes full).generated =
      (BatchReport.ofOutcomes outcomes).generated := by
  induction h with
  | nil => rfl
  | refused fault_of rest ih =>
      simpa [Request.refusal, Outcome.failure?] using ih
  | named faultless component rest ih =>
      simp only [BatchReport.generated_ofOutcomes, List.filter_cons] at ih ⊢
      split <;> simp [ih]

theorem written_eq (h : Completes requests outcomes full) :
    (BatchReport.ofOutcomes full).written =
      (BatchReport.ofOutcomes outcomes).written := by
  induction h with
  | nil => rfl
  | refused fault_of rest ih => simpa [Request.refusal, Outcome.files] using ih
  | named faultless component rest ih => simpa using ih

end Completes

def failuresOf (entries : List (Request × Option Failure)) :
    List (String × Failure) :=
  entries.filterMap fun e => e.2.map (e.1.name, ·)

/-- The failures with and without the refused requests, by what became of each
request. -/
theorem Completes.exists_entries {requests : List Request}
    {outcomes full : List Outcome} (h : Completes requests outcomes full) :
    ∃ entries : List (Request × Option Failure), entries.map Prod.fst =
      requests ∧
      (∀ e ∈ entries, ∀ fault, nameFault? e.1.name = some fault →
        e.2 = some (.validation fault.message)) ∧
      (BatchReport.ofOutcomes full).failures = failuresOf entries ∧
      (BatchReport.ofOutcomes outcomes).failures =
        failuresOf (entries.filter (·.1.isNamed)) := by
  induction h with
  | nil => exact ⟨[], rfl, by simp, rfl, rfl⟩
  | @refused r fault _ _ _ fault_of rest ih =>
      obtain ⟨entries, hfst, hrefused, hfull, hnamed⟩ := ih
      refine ⟨(r, some (.validation fault.message)) :: entries, by simp [hfst],
        ?_, ?_, ?_⟩
      · intro e he fault' hfault'
        rcases List.mem_cons.1 he with rfl | he
        · rw [fault_of, Option.some.injEq] at hfault'
          rw [hfault']
        · exact hrefused e he fault' hfault'
      · simpa [failuresOf, Request.refusal, Outcome.failure?] using hfull
      · simpa [Request.isNamed, fault_of] using hnamed
  | @named r o _ _ _ faultless component rest ih =>
      obtain ⟨entries, hfst, hrefused, hfull, hnamed⟩ := ih
      refine ⟨(r, o.failure?) :: entries, by simp [hfst], ?_, ?_, ?_⟩
      · intro e he fault hfault
        rcases List.mem_cons.1 he with rfl | he
        · rw [faultless] at hfault
          exact absurd hfault (by simp)
        · exact hrefused e he fault hfault
      · simp only [BatchReport.failures_ofOutcomes, failuresOf,
          List.filterMap_cons, component] at hfull ⊢
        rw [hfull]
      · simp only [BatchReport.failures_ofOutcomes, failuresOf,
          List.filterMap_cons, component, List.filter_cons, Request.isNamed,
          faultless] at hnamed ⊢
        rw [hnamed]
        rfl

section

variable {σ : Type} [FileSystem (StateM σ)]

theorem component_generate (c : Config) (r : Request) (files : σ) :
    ((generate c r : StateM σ Outcome).run files).1.component = r.name := by
  rw [generate]
  split
  case h_1 => rfl
  case h_2 rendering _ =>
    -- whatever the report on the files, the outcome bears the name of the
    -- request
    rw [StateT.run_bind]
    generalize (writeFiles r.directory rendering.files :
      StateM σ WriteReport).run files = done
    obtain ⟨⟨written, failed⟩, after⟩ := done
    cases failed with
    | nil => rfl
    | cons first rest => rfl

/-- One outcome a request, under its name and in its place. -/
theorem map_component_generateEach (c : Config) (requests : List Request)
    (files : σ) :
    ((generateEach c requests : StateM σ (List Outcome)).run files).1.map
      (·.component) =
      requests.map (·.name) := by
  induction requests generalizing files with
  | nil => rfl
  | cons r requests ih =>
      have hfirst := component_generate c r files
      have hrest := ih ((generate c r : StateM σ Outcome).run files).2
      rw [List.map_cons, ← hfirst, ← hrest]
      rfl

/-- A batch and the same batch without its refused requests end with the same
files and report the same components and paths.  What the first reports besides
is one failure for each refused request, at the place that it has among the
requests. -/
theorem generateAll_filter_isNamed (c : Config) (requests : List Request)
    (files : σ) :
    let all := (generateAll c requests : StateM σ BatchReport).run files
    let named := (generateAll c (requests.filter (·.isNamed)) :
      StateM σ BatchReport).run files
    all.2 = named.2 ∧ all.1.generated = named.1.generated ∧
      all.1.written = named.1.written ∧
      ∃ entries : List (Request × Option Failure), entries.map Prod.fst =
        requests ∧
        (∀ e ∈ entries, ∀ fault, nameFault? e.1.name = some fault →
          e.2 = some (.validation fault.message)) ∧
        all.1.failures = failuresOf entries ∧
        named.1.failures = failuresOf (entries.filter (·.1.isNamed)) := by
  have hcompletes := completes_withRefusals
    (map_component_generateEach c (requests.filter (·.isNamed)) files)
  have hall : (generateAll c requests : StateM σ BatchReport).run files =
      (.ofOutcomes (withRefusals requests ((generateEach c
        (requests.filter (·.isNamed)) : StateM σ (List Outcome)).run files).1),
        ((generateEach c (requests.filter (·.isNamed)) :
          StateM σ (List Outcome)).run files).2) := by
    rw [generateAll, generateEach_eq_withRefusals]
    rfl
  rw [hall]
  exact ⟨rfl, hcompletes.generated_eq, hcompletes.written_eq,
    hcompletes.exists_entries⟩

end

end Scaffold.Component

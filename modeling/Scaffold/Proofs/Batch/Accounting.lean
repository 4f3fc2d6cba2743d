import Mathlib.Data.List.Flatten
import Mathlib.Data.List.Forall2
import Scaffold.FileSystem.Tree
import Scaffold.Proofs.Batch.Journal
import Scaffold.Proofs.Batch.Report
/-!
What the report of a batch tells of its writes.  Every request is tried once,
each of its files is written or not, and the report names the request among the
generated components or among the failures.  Of the paths that were written it
keeps those of the generated components only, so that it accounts for all of
them just when no failed request got a file written.  Main statement:
`generateAll_accounts`.
-/
namespace Scaffold.Component

def writtenPaths (attempts : List Attempt) : List String :=
  attempts.filterMap (·.success?)

@[simp]
theorem writtenPaths_flatMap {α : Type} (f : α → List Attempt) (xs : List α) :
    writtenPaths (xs.flatMap f) = xs.flatMap fun x => writtenPaths (f x) := by
  induction xs with
  | nil => rfl
  | cons x xs ih =>
      rw [List.flatMap_cons, List.flatMap_cons, ← ih, writtenPaths,
        List.filterMap_append]
      rfl

/-- The files that a request asks for, whatever stands in them. -/
def Request.paths (r : Request) : List String :=
  if (nameFault? r.name).isNone then r.componentPath :: r.stylesheetPath?.toList
  else []

/-- The writes that were tried for a request. -/
structure Trial where
  request : Request
  attempts : List Attempt

namespace Trial

/-- What a trial comes to: a fault in the name counts first, then the first
write that failed. -/
def result (t : Trial) : Except Failure (List String) :=
  match nameFault? t.request.name, t.attempts.filterMap (·.fault?) with
  | some fault, _ => .error (.validation fault.message)
  | none, (path, fault) :: _ => .error (.file path fault.message)
  | none, [] => .ok (writtenPaths t.attempts)

/-- Why a trial failed, if it did. -/
def failure? (t : Trial) : Option Failure := failureOf? t.result

/-- The paths that were written for the request, whether it failed or not. -/
def written (t : Trial) : List String := writtenPaths t.attempts

theorem result_of_refused {t : Trial} {fault : NameFault}
    (h : nameFault? t.request.name = some fault) :
    t.result = .error (.validation fault.message) := by
  rw [result, h]

theorem result_of_ok {t : Trial} {files : List String}
    (h : t.result = .ok files) : files = t.written := by
  rw [result] at h
  split at h
  · exact absurd h (by simp)
  · exact absurd h (by simp)
  · exact (Except.ok.inj h).symm

end Trial

def Outcome.Tells (o : Outcome) (t : Trial) : Prop :=
  o.component = t.request.name ∧ o.result = t.result

namespace Outcome.Tells

variable {o : Outcome} {t : Trial}

theorem failure?_eq (h : o.Tells t) : o.failure? = t.failure? := by
  rw [failure?, Trial.failure?, h.2]

theorem files_of_isNone (h : o.Tells t) (hok : t.failure?.isNone) :
    o.files = t.written := by
  rw [Trial.failure?] at hok
  rw [files, h.2]
  cases hresult : t.result with
  | ok paths => exact Trial.result_of_ok hresult
  | error failure => simp [hresult] at hok

theorem files_of_isSome (h : o.Tells t) (hfailed : t.failure?.isSome) :
    o.files = [] := by
  rw [Trial.failure?] at hfailed
  rw [files, h.2]
  cases hresult : t.result with
  | ok paths => simp [hresult] at hfailed
  | error failure => rfl

end Outcome.Tells

section

variable {outcomes : List Outcome} {trials : List Trial}

theorem generated_of_tells (h : List.Forall₂ Outcome.Tells outcomes trials) :
    (BatchReport.ofOutcomes outcomes).generated =
      (trials.filter (·.failure?.isNone)).map (·.request.name) := by
  rw [BatchReport.generated_ofOutcomes]
  induction h with
  | nil => rfl
  | cons htells _ ih =>
      rw [List.filter_cons, List.filter_cons, htells.failure?_eq]
      split
      · rw [List.map_cons, List.map_cons, htells.1, ih]
      · exact ih

theorem failures_of_tells (h : List.Forall₂ Outcome.Tells outcomes trials) :
    (BatchReport.ofOutcomes outcomes).failures =
      trials.filterMap fun t => t.failure?.map (t.request.name, ·) := by
  rw [BatchReport.failures_ofOutcomes]
  induction h with
  | nil => rfl
  | cons htells _ ih =>
      rw [List.filterMap_cons, List.filterMap_cons, htells.failure?_eq,
        htells.1, ih]

theorem written_of_tells (h : List.Forall₂ Outcome.Tells outcomes trials) :
    (BatchReport.ofOutcomes outcomes).written =
      (trials.filter (·.failure?.isNone)).flatMap (·.written) := by
  rw [BatchReport.written_ofOutcomes]
  induction h with
  | nil => rfl
  | cons htells _ ih =>
      rw [List.flatMap_cons, List.filter_cons, ih]
      split
      case isTrue hok => rw [htells.files_of_isNone hok, List.flatMap_cons]
      case isFalse hfailed =>
        rw [htells.files_of_isSome
          (by simpa [Option.isSome_iff_ne_none] using hfailed), List.nil_append]

end

/-- Leaving out what the failed trials wrote leaves nothing out just if they
wrote nothing. -/
theorem flatMap_written_filter_iff (trials : List Trial) :
    (trials.filter (·.failure?.isNone)).flatMap (·.written) =
      trials.flatMap (·.written) ↔
      ∀ t ∈ trials, t.failure?.isSome → t.written = [] := by
  induction trials with
  | nil => simp
  | cons t trials ih =>
      rw [List.filter_cons, List.flatMap_cons, List.forall_mem_cons]
      cases hfailure : t.failure? with
      | none => simpa using ih
      | some failure =>
          -- lengths tell that what is left out has to be empty
          have hle : ((trials.filter (·.failure?.isNone)).flatMap
              (·.written)).length ≤ (trials.flatMap (·.written)).length :=
            ((List.filter_sublist).flatMap _).length_le
          constructor
          · intro heq
            have hnil : t.written = [] := by
              have hlength := congrArg List.length heq
              simp only [Option.isNone_some, Bool.false_eq_true, if_false,
                List.length_append] at hlength
              exact List.eq_nil_of_length_eq_zero (by omega)
            rw [hnil] at heq
            exact ⟨fun _ => hnil, ih.1 (by simpa using heq)⟩
          · rintro ⟨hnil, hrest⟩
            simpa [hnil] using ih.2 hrest

namespace WriteReport

/-- The report with the outcomes of more writes. -/
def addAll (report : WriteReport) (attempts : List Attempt) : WriteReport where
  written := report.written ++ writtenPaths attempts
  failed := report.failed ++ attempts.filterMap (·.fault?)

theorem addAll_cons (report : WriteReport) (path : String)
    (outcome : Except FileFault Unit) (attempts : List Attempt) :
    report.addAll (⟨path, outcome⟩ :: attempts) =
      (report.add path outcome).addAll attempts := by
  cases outcome with
  | ok _ => simp [addAll, add, writtenPaths, Attempt.success?, Attempt.fault?]
  | error fault =>
      simp [addAll, add, writtenPaths, Attempt.success?, Attempt.fault?]

end WriteReport

section

variable {σ : Type} [FileSystem (StateM σ)]

/-- Every file is tried, in order, whatever became of those before it. -/
theorem exists_observed_writeEach (report : WriteReport) (list : List File)
    (files : σ) :
    ∃ attempts after, attempts.map (·.path) = list.map (·.path) ∧
      Observed (writeEach report list) (writeEach report list) files
        (report.addAll attempts) attempts after := by
  induction list generalizing report files with
  | nil =>
      refine ⟨[], files, rfl, ?_⟩
      have hreport : report.addAll [] = report := by
        simp [WriteReport.addAll, writtenPaths]
      rw [hreport]
      exact Observed.pure report files
  | cons f list ih =>
      obtain ⟨outcome, between, hwrite⟩ :=
        Observed.exists_write f.path f.content files
      obtain ⟨attempts, after, hpaths, hrest⟩ :=
        ih (report.add f.path outcome) between
      refine ⟨⟨f.path, outcome⟩ :: attempts, after, ?_, ?_⟩
      · rw [List.map_cons, List.map_cons, hpaths]
      · rw [WriteReport.addAll_cons]
        exact hwrite.bind hrest

/-- The directory is made first, if there is one to make. -/
theorem exists_observed_writeFiles (directory : String) (list : List File)
    (files : σ) :
    ∃ attempts after, attempts.map (·.path) = list.map (·.path) ∧
      Observed (writeFiles directory list) (writeFiles directory list) files
        (WriteReport.addAll {} attempts) attempts after := by
  cases hempty : directory.isEmpty with
  | true =>
      obtain ⟨attempts, after, hpaths, hrest⟩ :=
        exists_observed_writeEach {} list files
      refine ⟨attempts, after, hpaths, ?_⟩
      simpa [writeFiles, hempty] using hrest
  | false =>
      obtain ⟨_, between, hmake⟩ :=
        Observed.exists_makeDirectories directory files
      obtain ⟨attempts, after, hpaths, hrest⟩ :=
        exists_observed_writeEach {} list between
      refine ⟨attempts, after, hpaths, ?_⟩
      simpa [writeFiles, hempty] using hmake.bind hrest

theorem path_filesWith (r : Request) (body : Body) :
    (r.filesWith body).map (·.path) =
      r.componentPath :: r.stylesheetPath?.toList := by
  rw [Request.filesWith]
  cases r.stylesheetPath? <;> rfl

/-- What is written for a rendered request decides what comes of it. -/
theorem tells_of_report {r : Request} (hname : nameFault? r.name = none)
    (attempts : List Attempt) (warnings : List String) :
    let report := WriteReport.addAll {} attempts
    Outcome.Tells (match report.failed with
      | [] => ⟨r.name, .ok report.written, warnings⟩
      | (path, fault) :: _ =>
          ⟨r.name, .error (.file path fault.message), warnings⟩)
      ⟨r, attempts⟩ := by
  intro report
  have hfailed : report.failed = attempts.filterMap (·.fault?) :=
    List.nil_append _
  have hwritten : report.written = writtenPaths attempts := List.nil_append _
  rw [hfailed, hwritten, Outcome.Tells, Trial.result, hname]
  cases attempts.filterMap (·.fault?) with
  | nil => exact ⟨rfl, rfl⟩
  | cons first _ => exact ⟨rfl, rfl⟩

/-- One request is tried once, with all of its files. -/
theorem exists_observed_generate (c : Config) (r : Request) (files : σ) :
    ∃ (t : Trial) (o : Outcome) (after : σ), t.request = r ∧
      t.attempts.map (·.path) = t.request.paths ∧ o.Tells t ∧
      Observed (generate c r) (generate c r) files o t.attempts after := by
  cases hname : nameFault? r.name with
  | some fault =>
      have htells : (⟨r.name, .error (.validation fault.message), []⟩ :
          Outcome).Tells ⟨r, []⟩ :=
        ⟨rfl, (Trial.result_of_refused hname).symm⟩
      refine ⟨⟨r, []⟩, _, files, rfl, by simp [Request.paths, hname],
        htells, ?_⟩
      simpa only [generate, Request.render, hname] using Observed.pure _ files
  | none =>
      obtain ⟨⟨body, warnings⟩, hbody⟩ : ∃ made,
          made = Body.ofStructure c r.source := ⟨_, rfl⟩
      obtain ⟨attempts, after, hpaths, hwrites⟩ :=
        exists_observed_writeFiles r.directory (r.filesWith body) files
      refine ⟨⟨r, attempts⟩, _, after, rfl, ?_,
        tells_of_report hname attempts warnings, ?_⟩
      · rw [hpaths, path_filesWith, Request.paths, hname]
        rfl
      · simp only [generate, Request.render, hname, ← hbody]
        exact hwrites.bind_pure _

/-- Every request is tried once, in order, and has one outcome. -/
theorem exists_observed_generateEach (c : Config) (requests : List Request)
    (files : σ) :
    ∃ (trials : List Trial) (outcomes : List Outcome) (after : σ),
      trials.map (·.request) = requests ∧
      (∀ t ∈ trials, t.attempts.map (·.path) = t.request.paths) ∧
      List.Forall₂ Outcome.Tells outcomes trials ∧
      Observed (generateEach c requests) (generateEach c requests) files
        outcomes (trials.flatMap (·.attempts)) after := by
  induction requests generalizing files with
  | nil => exact ⟨[], [], files, rfl, by simp, .nil, Observed.pure [] files⟩
  | cons r requests ih =>
      obtain ⟨t, o, between, hrequest, hpaths, htells, hfirst⟩ :=
        exists_observed_generate c r files
      obtain ⟨trials, outcomes, after, hrequests, hallPaths, hallTell, hrest⟩ :=
        ih between
      refine ⟨t :: trials, o :: outcomes, after,
        by rw [List.map_cons, hrequest, hrequests],
        List.forall_mem_cons.2 ⟨hpaths, hallPaths⟩, .cons htells hallTell, ?_⟩
      rw [List.flatMap_cons]
      exact hfirst.bind (hrest.bind_pure (o :: ·))

/-- A batch tries each request once and in order, each with all of its files, as
the journal of the run has it.  The report splits the requests into those that
were generated and those that failed. The paths that it gives as written are
those of the generated components, and these are all the paths that were written
just if no failed request has one among its own. -/
theorem generateAll_accounts (c : Config) (requests : List Request)
    (files : σ) :
    let run := (generateAll c requests : StateM σ BatchReport).run files
    ∃ trials : List Trial, trials.map (·.request) = requests ∧
      (∀ t ∈ trials, t.attempts.map (·.path) = t.request.paths) ∧
      ((generateAll c requests : Journaled (StateM σ) BatchReport).run []).run
        files =
        ((run.1, trials.flatMap (·.attempts)), run.2) ∧
      run.1.generated = (trials.filter (·.failure?.isNone)).map
        (·.request.name) ∧
      run.1.failures =
        trials.filterMap (fun t => t.failure?.map (t.request.name, ·)) ∧
      run.1.written = (trials.filter (·.failure?.isNone)).flatMap (·.written) ∧
      (run.1.written = writtenPaths (trials.flatMap (·.attempts)) ↔
        ∀ t ∈ trials, t.failure?.isSome → t.written = []) := by
  intro run
  obtain ⟨trials, outcomes, after, hrequests, hpaths, htell, heach⟩ :=
    exists_observed_generateEach c requests files
  have hall : Observed (generateAll c requests) (generateAll c requests) files
      (.ofOutcomes outcomes) (trials.flatMap (·.attempts)) after :=
    heach.bind_pure BatchReport.ofOutcomes
  have hrun : run = (.ofOutcomes outcomes, after) := hall.run_plain
  have hwritten := written_of_tells htell
  rw [hrun]
  refine ⟨trials, hrequests, hpaths, hall.run_journaled [],
    generated_of_tells htell, failures_of_tells htell, hwritten, ?_⟩
  rw [hwritten, writtenPaths_flatMap]
  exact flatMap_written_filter_iff trials

end

namespace AccountingWitness

def button : Request := { name := "Button", directory := "" }

/-- A directory stands where the stylesheet of the component has to go. -/
def blocked : FileTree := { entries := [(["Button.css"], .directory)] }

/-- The component file gets written and the stylesheet does not: the request
failed, and the report has no written path. -/
theorem generateAll_forgets_written :
    let run :=
      (generateAll {} [button] : StateM FileTree BatchReport).run blocked
    let journaled :=
      ((generateAll {} [button] : Journaled (StateM FileTree) BatchReport).run
        []).run blocked
    writtenPaths journaled.1.2 = ["Button.tsx"] ∧
      run.2.find? "Button.css" = some .directory ∧
      (run.2.find? "Button.tsx").isSome ∧ run.1.written = [] := by
  decide +kernel

end AccountingWitness

end Scaffold.Component

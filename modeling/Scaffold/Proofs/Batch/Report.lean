import Scaffold.Component.Batch
/-!
The report of a batch in terms of what became of each request: it failed for a
reason, or it did not fail and has its files.
-/
namespace Scaffold.Component

/-- Why a result is none, if it is. -/
@[simp]
def failureOf? : Except Failure (List String) → Option Failure
  | .ok _ => none
  | .error failure => some failure

/-- The files of a result, none if it failed. -/
@[simp]
def filesOf : Except Failure (List String) → List String
  | .ok written => written
  | .error _ => []

namespace Outcome

/-- Why a request failed, if it did. -/
def failure? (o : Outcome) : Option Failure := failureOf? o.result

/-- The files of a request that did not fail. -/
def files (o : Outcome) : List String := filesOf o.result

end Outcome

namespace BatchReport

@[simp]
theorem generated_ofOutcomes (outcomes : List Outcome) :
    (ofOutcomes outcomes).generated =
      (outcomes.filter (·.failure?.isNone)).map (·.component) := by
  rw [ofOutcomes]
  induction outcomes with
  | nil => rfl
  | cons o outcomes ih =>
      rw [List.filterMap_cons, List.filter_cons, Outcome.failure?]
      cases o.result with
      | ok written => simpa using ih
      | error failure => simpa using ih

@[simp]
theorem failures_ofOutcomes (outcomes : List Outcome) :
    (ofOutcomes outcomes).failures =
      outcomes.filterMap fun o => o.failure?.map (o.component, ·) := by
  have heach : (fun o : Outcome => match o.result with
      | .ok _ => none
      | .error failure => some (o.component, failure)) =
        fun o => o.failure?.map (o.component, ·) := by
    funext o
    rw [Outcome.failure?]
    cases o.result <;> rfl
  exact congrArg (outcomes.filterMap ·) heach

@[simp]
theorem written_ofOutcomes (outcomes : List Outcome) :
    (ofOutcomes outcomes).written = outcomes.flatMap (·.files) := rfl

end BatchReport

end Scaffold.Component

import LeadDesk.Template.Path
import LeadDesk.Workflow.Record
/-!
# The progress of a run

What a run has come to between two of its steps: the context that the next step sees, how
many steps were carried out, which events were emitted, and whether the run was stopped or
has failed. `Progress.status` is the status with which the run would end now.
-/

namespace LeadDesk

/-- The progress of a run. -/
structure Progress where
  context : Fields
  executed : Int := 0
  emitted : List String := []
  stopped : Bool := false
  /-- The error of a run that has failed. -/
  error : Option String := none
  deriving Inhabited

namespace Progress

/-- The status of a run that ends here. A failure counts more than a stop. -/
def status (p : Progress) : RunStatus :=
  if p.error.isSome then .failed else if p.stopped then .stopped else .completed

/-- Add items to the list at a place in the context, if there is such a place. -/
def lengthen (p : Progress) (place : Option (List String)) (items : List Json) : Progress :=
  { p with context := place.elim p.context fun segments =>
      Path.lengthen items segments p.context }

/-- Count a step, unless it was skipped. -/
def count (p : Progress) (r : StepResult) : Progress :=
  if r.logStatus == .skipped then p else { p with executed := p.executed + 1 }

/-- The name of the variable that takes the output of a step. -/
def outputName? (s : WorkflowStep) : Option String :=
  match s.output with
  | none | some "" => none
  | some name => some name

/-- Put the output of a step that succeeded into the context, and stop if it asks for that. -/
def succeed (p : Progress) (s : WorkflowStep) (r : StepResult) : Progress :=
  let context := match outputName? s, r.output with
    | some name, some v => Fields.put p.context name v
    | _, _ => p.context
  { p with context := context, stopped := p.stopped || r.stop }

/-- What the context keeps of a failure that does not end the run. -/
def failureMark (r : StepResult) : Json :=
  .object ([("error", .bool true), ("message", Json.ofText? r.error)] ++
    (if r.unavailable then [("unavailable", .bool true)] else []))

/-- The name of the variable that takes the failure of a step. -/
def failureName (s : WorkflowStep) : String :=
  (outputName? s).getD s!"step_{s.order}_error"

/-- Keep the failure of a step in the context and go on. -/
def tolerate (p : Progress) (s : WorkflowStep) (r : StepResult) : Progress :=
  { p with context := Fields.put p.context (failureName s) (failureMark r) }

/-- The error of a run that ends with the failure of a step. -/
def stepError (s : WorkflowStep) (r : StepResult) : String :=
  match r.error with
  | none | some "" => s!"Step '{s.name}' failed"
  | some e => e

/-- Let the run fail. -/
def fail (p : Progress) (error : String) : Progress := { p with error := some error }

/-- Remember an event that was emitted. -/
def emit (p : Progress) (id : String) : Progress := { p with emitted := p.emitted ++ [id] }

/-- A run is never left as running. -/
theorem status_ne_running (p : Progress) : p.status ≠ .running := by
  unfold status
  split
  · simp
  · split <;> simp

/-- A run has failed exactly when it has an error. -/
theorem status_eq_failed_iff (p : Progress) : p.status = .failed ↔ p.error.isSome = true := by
  unfold status
  split
  · simp_all
  · split <;> simp_all

/-- A run is completed when it has no error and was not stopped. -/
theorem status_eq_completed_iff (p : Progress) :
    p.status = .completed ↔ p.error = none ∧ p.stopped = false := by
  unfold status
  cases p.error <;> cases p.stopped <;> simp

theorem status_eq_stopped_iff (p : Progress) :
    p.status = .stopped ↔ p.error = none ∧ p.stopped = true := by
  unfold status
  cases p.error <;> cases p.stopped <;> simp

/-- The output of a step is in the context afterwards. -/
theorem get?_succeed {p : Progress} {s : WorkflowStep} {r : StepResult} {name : String} {v : Json}
    (hs : outputName? s = some name) (hr : r.output = some v) :
    Fields.get? (p.succeed s r).context name = some v := by
  simp [succeed, hs, hr]

end Progress

end LeadDesk

import LeadDesk.Workflow.Basic
import LeadDesk.Workflow.Event
/-!
# Records of execution

What is kept of the execution of workflows: the result of a step, a run with its
status, the log of a run with one entry per step, and what callers get back from a
run and from a dispatch.
-/

namespace LeadDesk

/-- Where a run stands. -/
inductive RunStatus where
  | running
  | completed
  | stopped
  | failed
  deriving DecidableEq, Repr, Inhabited

namespace RunStatus

/-- The statuses with the words that name them. -/
def words : List (String × RunStatus) :=
  [("running", running), ("completed", completed), ("stopped", stopped), ("failed", failed)]

/-- The word for a status. -/
def word : RunStatus → String
  | running => "running"
  | completed => "completed"
  | stopped => "stopped"
  | failed => "failed"

end RunStatus

/-- How a step ended. -/
inductive StepStatus where
  | completed
  | skipped
  | failed
  deriving DecidableEq, Repr, Inhabited

namespace StepStatus

/-- The statuses with the words that name them. -/
def words : List (String × StepStatus) :=
  [("completed", completed), ("skipped", skipped), ("failed", failed)]

/-- The word for a status. -/
def word : StepStatus → String
  | completed => "completed"
  | skipped => "skipped"
  | failed => "failed"

end StepStatus

/-- The result of a step. An output that is not there is no output, while null is one. The input
is not there when it was a placeholder without a value. -/
structure StepResult where
  success : Bool
  output : Option Json := none
  error : Option String := none
  stop : Bool := false
  stopReason : Option String := none
  emit : Option Emission := none
  input : Option Json := some .null
  status : Option StepStatus := none
  unavailable : Bool := false
  tokensUsed : Option Int := none
  modelUsed : Option String := none
  deriving Inhabited

namespace StepResult

/-- A failed step. -/
def fail (error : String) (input : Option Json) : StepResult :=
  { success := false, error := some error, input := input }

/-- The step has an output. -/
def hasOutput (r : StepResult) : Bool := r.output.isSome

/-- The status that the log shows. -/
def logStatus (r : StepResult) : StepStatus :=
  if r.success then r.status.getD .completed else .failed

/-- An optional integer as a data value. -/
def intJson? (n : Option Int) : Json := n.elim .null .int

/-- A result as a data value. -/
def toJson (r : StepResult) : Json :=
  .object [
    ("success", .bool r.success),
    ("output", r.output.getD .null),
    ("error", Json.ofText? r.error),
    ("stop", .bool r.stop),
    ("stop_reason", Json.ofText? r.stopReason),
    ("emit_event", (r.emit.map Emission.toJson).getD .null),
    ("input", r.input.getD .null),
    ("status", Json.ofText? (r.status.map StepStatus.word)),
    ("unavailable", .bool r.unavailable),
    ("tokens_used", intJson? r.tokensUsed),
    ("model_used", Json.ofText? r.modelUsed)]

/-- Check the fields of a result. -/
def check : Validation.Check StepResult :=
  Validation.record "StepResult" fun f =>
    StepResult.mk <$> Validation.required f "success" Validation.truth
      <*> Validation.defaulted f "output" none (fun v => .good (some v))
      <*> Validation.defaulted f "error" none Validation.optionalText
      <*> Validation.defaulted f "stop" false Validation.truth
      <*> Validation.defaulted f "stop_reason" none Validation.optionalText
      <*> Validation.defaulted f "emit_event" none (Validation.optional Emission.check)
      <*> Validation.defaulted f "input" (some .null) (fun v => .good (some v))
      <*> Validation.defaulted f "status" none
        (Validation.optional (Validation.choice StepStatus.words))
      <*> Validation.defaulted f "unavailable" false Validation.truth
      <*> Validation.defaulted f "tokens_used" none (Validation.optional Validation.integer)
      <*> Validation.defaulted f "model_used" none Validation.optionalText

end StepResult

/-- A run of a workflow. -/
structure Run where
  id : String
  workflowId : String
  teamId : Option String
  triggeredBy : String
  triggerEventId : Option String
  entityType : Option String
  entityId : Option String
  status : RunStatus
  startedAt : Timestamp
  completedAt : Option Timestamp
  context : Fields
  finalContext : Option Fields
  error : Option String
  deriving Inhabited

namespace Run

/-- Check the fields of a run; `freshId` and `now` stand in for fields that are left out. -/
def check (freshId : String) (now : Timestamp) : Validation.Check Run :=
  Validation.record "WorkflowRun" fun f =>
    Run.mk <$> Validation.defaulted f "id" freshId Validation.text
      <*> Validation.required f "workflow_template_id" Validation.text
      <*> Validation.defaulted f "team_id" none Validation.optionalText
      <*> Validation.defaulted f "triggered_by" "manual" Validation.text
      <*> Validation.defaulted f "trigger_event_id" none Validation.optionalText
      <*> Validation.defaulted f "entity_type" none Validation.optionalText
      <*> Validation.defaulted f "entity_id" none Validation.optionalText
      <*> Validation.defaulted f "status" .running (Validation.choice RunStatus.words)
      <*> Validation.defaulted f "started_at" now Validation.timestamp
      <*> Validation.defaulted f "completed_at" none (Validation.optional Validation.timestamp)
      <*> Validation.defaulted f "context" [] Validation.object
      <*> Validation.defaulted f "final_context" none (Validation.optional Validation.object)
      <*> Validation.defaulted f "error_message" none Validation.optionalText

/-- A run as a data value, with its moments written by `time`. -/
def toJsonWith (time : Timestamp → String) (r : Run) : Json :=
  .object [
    ("id", .string r.id),
    ("workflow_template_id", .string r.workflowId),
    ("team_id", Json.ofText? r.teamId),
    ("triggered_by", .string r.triggeredBy),
    ("trigger_event_id", Json.ofText? r.triggerEventId),
    ("entity_type", Json.ofText? r.entityType),
    ("entity_id", Json.ofText? r.entityId),
    ("status", .string r.status.word),
    ("started_at", .string (time r.startedAt)),
    ("completed_at", Json.ofText? (r.completedAt.map time)),
    ("context", .object r.context),
    ("final_context", (r.finalContext.map Json.object).getD .null),
    ("error_message", Json.ofText? r.error)]

/-- A run as a data value. -/
def toJson (r : Run) : Json := r.toJsonWith Timestamp.text

end Run

/-- The entry of a run's log for one step. -/
structure RunLog where
  id : String
  runId : String
  stepId : Option String
  stepOrder : Int
  stepName : String
  status : StepStatus
  input : Json
  output : Json
  error : Option String
  tokensUsed : Option Int
  executedAt : Timestamp
  deriving Inhabited

namespace RunLog

/-- Check the fields of an entry; `freshId` and `now` stand in for fields that are left out. -/
def check (freshId : String) (now : Timestamp) : Validation.Check RunLog :=
  Validation.record "WorkflowRunLog" fun f =>
    RunLog.mk <$> Validation.defaulted f "id" freshId Validation.text
      <*> Validation.required f "workflow_run_id" Validation.text
      <*> Validation.defaulted f "workflow_step_id" none Validation.optionalText
      <*> Validation.required f "step_order" Validation.integer
      <*> Validation.required f "step_name" Validation.text
      <*> Validation.required f "status" (Validation.choice StepStatus.words)
      <*> Validation.defaulted f "input" .null Validation.any
      <*> Validation.defaulted f "output" .null Validation.any
      <*> Validation.defaulted f "error_message" none Validation.optionalText
      <*> Validation.defaulted f "tokens_used" none (Validation.optional Validation.integer)
      <*> Validation.defaulted f "executed_at" now Validation.timestamp

/-- An entry as a data value, with its moment written by `time`. -/
def toJsonWith (time : Timestamp → String) (l : RunLog) : Json :=
  .object [
    ("id", .string l.id),
    ("workflow_run_id", .string l.runId),
    ("workflow_step_id", Json.ofText? l.stepId),
    ("step_order", .int l.stepOrder),
    ("step_name", .string l.stepName),
    ("status", .string l.status.word),
    ("input", l.input),
    ("output", l.output),
    ("error_message", Json.ofText? l.error),
    ("tokens_used", StepResult.intJson? l.tokensUsed),
    ("executed_at", .string (time l.executedAt))]

/-- An entry as a data value. -/
def toJson (l : RunLog) : Json := l.toJsonWith Timestamp.text

end RunLog

/-- What a caller gets back from a run. -/
structure RunOutcome where
  success : Bool
  runId : Option String := none
  slug : Option String := none
  status : RunStatus
  stepsExecuted : Int := 0
  error : Option String := none
  context : Fields := []
  emitted : List String := []
  deriving Inhabited

namespace RunOutcome

/-- Check the fields of an outcome. -/
def check : Validation.Check RunOutcome :=
  Validation.record "RunOutcome" fun f =>
    RunOutcome.mk <$> Validation.required f "success" Validation.truth
      <*> Validation.defaulted f "run_id" none Validation.optionalText
      <*> Validation.defaulted f "workflow_slug" none Validation.optionalText
      <*> Validation.required f "status" (Validation.choice RunStatus.words)
      <*> Validation.defaulted f "steps_executed" 0 Validation.integer
      <*> Validation.defaulted f "error" none Validation.optionalText
      <*> Validation.defaulted f "context" [] Validation.object
      <*> Validation.defaulted f "emitted_events" [] (Validation.list Validation.text)

/-- An outcome as a data value. -/
def toJson (o : RunOutcome) : Json :=
  .object [
    ("success", .bool o.success),
    ("run_id", Json.ofText? o.runId),
    ("workflow_slug", Json.ofText? o.slug),
    ("status", .string o.status.word),
    ("steps_executed", .int o.stepsExecuted),
    ("error", Json.ofText? o.error),
    ("context", .object o.context),
    ("emitted_events", Json.ofTexts o.emitted)]

end RunOutcome

/-- What a caller gets back from the dispatch of an event. -/
structure DispatchResult where
  success : Bool := true
  eventId : Option String := none
  workflowsRun : Int := 0
  results : List RunOutcome := []
  message : Option String := none
  skipped : Bool := false
  deriving Inhabited

namespace DispatchResult

/-- Check the fields of a result. -/
def check : Validation.Check DispatchResult :=
  Validation.record "DispatchResult" fun f =>
    DispatchResult.mk <$> Validation.defaulted f "success" true Validation.truth
      <*> Validation.defaulted f "event_id" none Validation.optionalText
      <*> Validation.defaulted f "workflows_run" 0 Validation.integer
      <*> Validation.defaulted f "results" [] (Validation.list RunOutcome.check)
      <*> Validation.defaulted f "message" none Validation.optionalText
      <*> Validation.defaulted f "skipped" false Validation.truth

/-- A result as a data value. -/
def toJson (d : DispatchResult) : Json :=
  .object [
    ("success", .bool d.success),
    ("event_id", Json.ofText? d.eventId),
    ("workflows_run", .int d.workflowsRun),
    ("results", .array (d.results.map RunOutcome.toJson)),
    ("message", Json.ofText? d.message),
    ("skipped", .bool d.skipped)]

end DispatchResult

end LeadDesk

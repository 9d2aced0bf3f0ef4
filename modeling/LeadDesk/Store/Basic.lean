import LeadDesk.Store.Tables
import LeadDesk.Workflow.Record
/-!
# The store

All that the desk keeps: events, workflows with their steps, runs with their logs, and the
tables of customer records and team settings. Each table is in the order of insertion. The
modules beside this one say what can be asked of the store and how it changes; each change
is a function from stores to stores, and a refused change leaves no store behind.
-/

namespace LeadDesk

/-- The head of a stored workflow. -/
structure WorkflowRecord where
  id : String
  slug : String
  name : String
  description : String
  category : Option String
  trigger : String
  version : Int
  isActive : Bool
  createdAt : Timestamp
  updatedAt : Timestamp
  deriving Inhabited

/-- A stored step of a workflow. -/
structure StepRecord where
  id : String
  workflowId : String
  step : WorkflowStep
  createdAt : Timestamp
  deriving Inhabited

/-- Everything that is stored. -/
structure Store where
  events : List Event := []
  workflows : List WorkflowRecord := []
  steps : List StepRecord := []
  runs : List Run := []
  logs : List RunLog := []
  contacts : List Row := []
  companies : List Row := []
  notes : List Row := []
  tasks : List Row := []
  notifications : List Row := []
  integrations : List Row := []
  teamConfig : List Row := []
  deriving Inhabited

namespace Event

/-- An event as a row of its table. -/
def toRow (e : Event) : Row := [
  ("id", .string e.id),
  ("team_id", Json.ofText? e.teamId),
  ("event_type", .string e.type),
  ("entity_type", Json.ofText? e.entityType),
  ("entity_id", Json.ofText? e.entityId),
  ("payload", .object e.payload),
  ("source", Json.ofText? e.source),
  ("processed", .bool e.processed),
  ("processed_at", Timestamp.toJson? e.processedAt),
  ("created_at", .string e.createdAt.text)]

end Event

namespace WorkflowRecord

/-- The head of a workflow as a row of its table. -/
def toRow (w : WorkflowRecord) : Row := [
  ("id", .string w.id),
  ("slug", .string w.slug),
  ("name", .string w.name),
  ("description", .string w.description),
  ("category", Json.ofText? w.category),
  ("trigger_event", .string w.trigger),
  ("version", .int w.version),
  ("is_active", .bool w.isActive),
  ("created_at", .string w.createdAt.text),
  ("updated_at", .string w.updatedAt.text)]

end WorkflowRecord

namespace StepRecord

/-- A step as a row of its table. -/
def toRow (s : StepRecord) : Row := [
  ("id", .string s.id),
  ("workflow_template_id", .string s.workflowId),
  ("name", .string s.step.name),
  ("description", .string s.step.description),
  ("step_order", .int s.step.order),
  ("action_type", .string s.step.action.word),
  ("action_config", .object s.step.config),
  ("run_conditions", .array (s.step.guards.map Guard.toJson)),
  ("on_error", .string s.step.onFailure.word),
  ("output_variable", Json.ofText? s.step.output),
  ("is_enabled", .bool true),
  ("created_at", .string s.createdAt.text)]

end StepRecord

namespace Run

/-- A run as a row of its table. -/
def toRow (r : Run) : Row := [
  ("id", .string r.id),
  ("workflow_template_id", .string r.workflowId),
  ("team_id", Json.ofText? r.teamId),
  ("trigger_event_id", Json.ofText? r.triggerEventId),
  ("triggered_by", .string r.triggeredBy),
  ("entity_type", Json.ofText? r.entityType),
  ("entity_id", Json.ofText? r.entityId),
  ("status", .string r.status.word),
  ("context", .object r.context),
  ("final_context", (r.finalContext.map Json.object).getD .null),
  ("error_message", Json.ofText? r.error),
  ("started_at", .string r.startedAt.text),
  ("completed_at", Timestamp.toJson? r.completedAt)]

end Run

namespace RunLog

/-- An entry of a log as a row of its table. -/
def toRow (l : RunLog) : Row := [
  ("id", .string l.id),
  ("workflow_run_id", .string l.runId),
  ("workflow_step_id", Json.ofText? l.stepId),
  ("step_order", .int l.stepOrder),
  ("step_name", .string l.stepName),
  ("status", .string l.status.word),
  ("input", l.input),
  ("output", l.output),
  ("error_message", Json.ofText? l.error),
  ("tokens_used", StepResult.intJson? l.tokensUsed),
  ("executed_at", .string l.executedAt.text)]

end RunLog

namespace Store

/-- All rows of a table, in the order of insertion. -/
def table? (s : Store) : String → Option (List Row)
  | "events" => some (s.events.map Event.toRow)
  | "workflow_templates" => some (s.workflows.map WorkflowRecord.toRow)
  | "workflow_steps" => some (s.steps.map StepRecord.toRow)
  | "workflow_runs" => some (s.runs.map Run.toRow)
  | "workflow_run_logs" => some (s.logs.map RunLog.toRow)
  | "integrations" => some s.integrations
  | "team_config" => some s.teamConfig
  | "contacts" => some s.contacts
  | "companies" => some s.companies
  | "contact_notes" => some s.notes
  | "tasks" => some s.tasks
  | "notifications" => some s.notifications
  | _ => none

/-- The store keeps an integer only within 64 bits. -/
def checkInteger (n : Int) : Except Failure Unit :=
  if Column.fits n then .ok () else .error .tooLarge

end Store

end LeadDesk

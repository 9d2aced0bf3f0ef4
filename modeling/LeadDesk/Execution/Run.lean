import LeadDesk.Execution.Progress
import LeadDesk.Execution.Step
/-!
# Runs

A run carries out the steps of a workflow by their order, against a context of its own. Each
step that is reached leaves one entry in the log of the run, before its result takes effect:
a step whose guards do not hold is skipped; the output of a step that succeeds goes into the
context, its emission to the `Emitter`, and its stop ends the run; a failure either leaves a
mark in the context or ends the run, as the step's policy says.

The steps are bounded in time, part by part against one deadline. Whatever ends them, the
run is closed with a status that is final.
-/

namespace LeadDesk

/-- An emission with what it inherits from the event of its run. Its fields are not yet checked
to be those of an event. -/
structure FollowUp where
  type : String
  entityType : Json
  entityId : Json
  payload : Fields
  team : Json
  deriving Inhabited

/-- What becomes of the emissions of a run. -/
abbrev Emitter := FollowUp → Action Event

namespace Emitter

/-- Store an emission as an event that waits to be handled. -/
def queue : Emitter := fun f => do
  let id ← Action.newId
  let now ← Action.now
  let event ← match (Event.check id now (.object [
      ("type", .string f.type), ("entity_type", f.entityType), ("entity_id", f.entityId),
      ("payload", .object f.payload), ("team_id", f.team),
      ("source", .string "workflow")])).toExcept "Event" with
    | .ok e => pure e
    | .error report => Action.fail (.invalid report)
  Archive.createEvent event

end Emitter

/-- Why the steps of a run are not carried on with. -/
inductive Halt where
  /-- The time of the run is over. -/
  | late
  /-- A failure that is not the failure of a step. -/
  | broken (failure : Failure)

namespace Halt

/-- The error of a run that halts. -/
def message (limit : Limit) : Halt → String
  | late => s!"Workflow run timed out after {limit.text}s"
  | broken failure => failure.text

end Halt

/-- What follows a step. -/
inductive Verdict where
  | next
  | over
  | halted (halt : Halt)

/-- What identifies a run to its steps: its id, its workflow, when its time is over, and what
becomes of its emissions. -/
structure Course where
  runId : String
  slug : String
  deadline : Int
  emitter : Emitter

namespace Course

/-- How a failure in a part of a run halts it. A wait that took too long counts against the time
of the run. -/
def haltOf : Failure → Halt
  | .outside .timeout _ _ => .late
  | e => .broken e

/-- Carry out a part of a run before its deadline. -/
def part {α : Type} (c : Course) (x : Action α) : Action (Except Halt α) := do
  match ← Action.attempt (Action.before c.deadline x) with
  | .ok (some a) => return .ok a
  | .ok none => return .error .late
  | .error e => return .error (haltOf e)

/-- The reason that the log gives for a step whose guards do not hold. -/
def skipReason : String := "Run conditions not met"

/-- The result of a step, `none` when its guards do not hold. -/
def resultOf (s : WorkflowStep) (context : Fields) : Action (Option StepResult) := do
  let context := Json.object context
  if ← Action.ofExcept ((Guard.allHold context s.guards).mapError Failure.condition) then
    return some (← s.carryOut context)
  else return none

/-- A placeholder without a value as the log shows it. -/
def loggedInput (input : Option Json) : Json := input.getD (.string "MISSING")

/-- Add the result of a step to the log. -/
def log (c : Course) (s : WorkflowStep) (r : StepResult) : Action Unit := do
  let id ← Action.newId
  let now ← Action.now
  Archive.addLog {
    id := id, runId := c.runId, stepId := s.id, stepOrder := s.order, stepName := s.name,
    status := r.logStatus, input := loggedInput r.input, output := r.output.getD .null,
    error := r.error, tokensUsed := r.tokensUsed, executedAt := now }

/-- Tell the observers of a step. -/
def tell (c : Course) (event : String) (s : WorkflowStep) (more : Fields) : Action Unit :=
  Action.tell event ([("run_id", .string c.runId), ("step_order", .int s.order),
    ("step", .string s.name)] ++ more)

/-- The field of an emission, or else of the event of the run. -/
def inherited (own : Option String) (event : Json) (key : String) : Except Failure Json :=
  match own with
  | some (c : String) => if c == "" then fromEvent else .ok (.string c)
  | none => fromEvent
where
  /-- The field of the event. -/
  fromEvent : Except Failure Json :=
    match event.orElse .empty with
    | .object fields => .ok (Fields.getD fields key)
    | v => .error (.lacks v.kindName "get")

/-- An emission with what it inherits. -/
def followUp (context : Fields) (e : Emission) : Except Failure FollowUp := do
  let event := Fields.getD context "event"
  let entityType ← inherited e.entityType event "entity_type"
  let entityId ← inherited e.entityId event "entity_id"
  return { type := e.eventType, entityType := entityType, entityId := entityId,
           payload := e.payload, team := Fields.getD context "team_id" }

/-- Hand an emission on. -/
def emit (c : Course) (context : Fields) (e : Emission) : Action (FollowUp × Event) := do
  let f ← Action.ofExcept (followUp context e)
  return (f, ← c.emitter f)

/-- What follows a step that succeeded. -/
def verdict (p : Progress) : Verdict := if p.stopped then .over else .next

/-- Let a result take effect that is already in the log. -/
def settle (c : Course) (s : WorkflowStep) (r : StepResult) (p : Progress) :
    Action (Progress × Verdict) := do
  if r.success then
    c.tell "step_completed" s [("status", .string r.logStatus.word)]
    let p := p.succeed s r
    match r.emit with
    | none => return (p, verdict p)
    | some e =>
      match ← c.part (c.emit p.context e) with
      | .error halt => return (p, .halted halt)
      | .ok (f, event) =>
        Action.tell "event_emitted" [("run_id", .string c.runId),
          ("event_id", .string event.id), ("event_type", .string f.type),
          ("entity_id", f.entityId)]
        let p := p.emit event.id
        return (p, verdict p)
  else
    c.tell "step_failed" s
      [("error", Json.ofText? r.error), ("on_error", .string s.onFailure.word)]
    match s.onFailure with
    | .goOn => return (p.tolerate s r, .next)
    | .stop => return (p.fail (Progress.stepError s r), .over)

/-- Come to the result of a step within the time of the run, and to the items that its call has
added to a list. They are there however the call ends. -/
def perform (c : Course) (s : WorkflowStep) (context : Fields) :
    Action (Except Halt (Option StepResult) × List Json) := do
  Action.putAside []
  let result ← c.part (resultOf s context)
  return (result, ← Action.added)

/-- Carry out one step. -/
def step (c : Course) (s : WorkflowStep) (p : Progress) : Action (Progress × Verdict) := do
  let place := s.subject? (.object p.context)
  match ← c.perform s p.context with
  | (.error halt, added) => return (p.lengthen place added, .halted halt)
  | (.ok none, _) =>
    match ← c.part (c.log s (.skip skipReason)) with
    | .error halt => return (p, .halted halt)
    | .ok () =>
      c.tell "step_skipped" s []
      return (p, .next)
  | (.ok (some r), added) =>
    let p := (p.lengthen place added).count r
    match ← c.part (c.log s r) with
    | .error halt => return (p, .halted halt)
    | .ok () => c.settle s r p

/-- Carry out steps in turn until they are over. -/
def steps (c : Course) : List WorkflowStep → Progress → Action (Progress × Option Halt)
  | [], p => return (p, none)
  | s :: rest, p => do
    match ← c.step s p with
    | (p, .next) => c.steps rest p
    | (p, .over) => return (p, none)
    | (p, .halted halt) => return (p, some halt)

end Course

namespace Workflow

/-- The fields of the context that a run starts from. -/
def startContext (context : Json) : Except Failure Fields :=
  match context.orElse .empty with
  | .object fields => .ok fields
  | v => .error (.lacks v.kindName "get")

/-- The fields of the record of a new run. -/
def recordFields (w : Workflow) (context : Fields) (triggeredBy : String) :
    Except Failure Fields :=
  match (Fields.getD context "event").orElse .empty with
  | .object event =>
    .ok [("workflow_template_id", .string w.id),
      ("team_id", Fields.getD context "team_id"),
      ("triggered_by", .string triggeredBy),
      ("trigger_event_id", Fields.getD event "id"),
      ("entity_type", Fields.getD event "entity_type"),
      ("entity_id", Fields.getD event "entity_id"),
      ("context", .object context)]
  | v => .error (.lacks v.kindName "get")

/-- Store the record of a new run. -/
def openRun (w : Workflow) (context : Fields) (triggeredBy : String) : Action Run := do
  let fields ← Action.ofExcept (w.recordFields context triggeredBy)
  let id ← Action.newId
  let now ← Action.now
  match (Run.check id now (.object fields)).toExcept "WorkflowRun" with
  | .ok run => Archive.createRun run
  | .error report => Action.fail (.invalid report)

/-- The progress of a run whose steps have ended. -/
def ended (limit : Limit) : Progress × Option Halt → Progress
  | (p, none) => p
  | (p, some halt) => p.fail (halt.message limit)

/-- Carry out the steps of a run within its limit of time. -/
def carryOut (w : Workflow) (emitter : Emitter) (runId : String) (context : Fields) :
    Action Progress := do
  let office ← Action.office
  let limit := office.runLimit.getD office.settings.runLimit
  let start : Progress := { context := context }
  if limit.micros ≤ 0 then return ended limit (start, some .late)
  let deadline ← Action.deadline limit
  let course : Course :=
    { runId := runId, slug := w.slug, deadline := deadline, emitter := emitter }
  return ended limit (← course.steps w.orderedSteps start)

/-- Write into the record of a run how it ended. -/
def closeRun (runId : String) (p : Progress) : Action Unit := do
  let now ← Action.now
  let _ ← Archive.updateRun runId {
    status := some p.status, completedAt := some (some now),
    finalContext := some (some p.context), error := some p.error }

/-- The outcome of a run. -/
def outcome (w : Workflow) (runId : String) (p : Progress) : RunOutcome :=
  { success := p.status != .failed, runId := some runId, slug := some w.slug, status := p.status
    stepsExecuted := p.executed, error := p.error, context := p.context, emitted := p.emitted }

/-- Carry out a run whose record is stored, and close it. -/
def conduct (w : Workflow) (emitter : Emitter) (runId : String) (context : Fields) :
    Action RunOutcome := do
  Action.tell "run_started" [("run_id", .string runId), ("workflow", .string w.slug),
    ("steps", .int w.steps.length)]
  let p ← w.carryOut emitter runId context
  closeRun runId p
  Action.tell "run_finished" [("run_id", .string runId), ("workflow", .string w.slug),
    ("status", .string p.status.word), ("steps_executed", .int p.executed),
    ("error", Json.ofText? p.error)]
  return w.outcome runId p

/-- Run a workflow against a context. -/
def run (w : Workflow) (emitter : Emitter) (context : Json) (triggeredBy : String) :
    Action RunOutcome := do
  let context ← Action.ofExcept (startContext context)
  let record ← w.openRun context triggeredBy
  w.conduct emitter record.id context

/-- An outcome is a success exactly when its status is not failed. -/
theorem success_outcome (w : Workflow) (runId : String) (p : Progress) :
    (w.outcome runId p).success = (p.status != .failed) := rfl

end Workflow

end LeadDesk

import LeadDesk.Catalog.Seed
import LeadDesk.Dispatch.Basic
import LeadDesk.Intake
import LeadDesk.Model.Client
import LeadDesk.Service.Route
/-!
# Answers of the service

Every request is answered with a status and data. A body that is no trigger is refused with
400, a run or workflow that is not there with 404, and a body or query of the wrong form
with 422; the outcome of a run is an answer like any other, whatever its status.
-/

namespace LeadDesk

namespace Service

/-- An answer of the desk. -/
structure Answer where
  status : Nat
  body : Json

namespace Answer

/-- An answer with data. -/
def ok (body : Json) : Answer := ⟨200, body⟩

/-- The answer to a request that cannot be met. -/
def refused (status : Nat) (detail : String) : Answer :=
  ⟨status, .object [("detail", .string detail)]⟩

/-- The answer to a body that is no trigger. -/
def noTrigger (error : String) : Answer := ⟨400, .object [("error", .string error)]⟩

/-- The answer to a body or query of the wrong form. -/
def malformed : Answer := refused 422 "Unprocessable Content"

/-- The answer to a path that names nothing. -/
def unknown : Answer := refused 404 "Not Found"

/-- The answer to a method that a resource does not know. -/
def wrongMethod : Answer := refused 405 "Method Not Allowed"

/-- The answer that points to the path without slashes at its end. It has no body. -/
def elsewhere : Answer := ⟨307, .null⟩

end Answer

/-- The version of the desk. -/
def version : String := "0.1.0"

/-- Data as the body of an answer. -/
def answerData (body : Json) : Action Answer :=
  if body.isFinite then return .ok body else Action.fail .notJson

/-- The data of a body, `none` for an empty one. A mark of byte order in front is skipped. -/
def bodyData : Body → Except Failure (Option Json)
  | .empty => .ok none
  | .data v => .ok (some v)
  | .text "" => .ok none
  | .text s =>
    if (Body.text s).IsRegular then
      match Json.read (Json.withoutMark s) with
      | .ok v => .ok (some v)
      | .error e => .error (.json e)
    else .error .unreadable

/-- The state of the desk. -/
def health (isOpen : Bool) : Action Answer := do
  let client := ModelClient.ofSettings (← Action.settings)
  return .ok (.object [
    ("status", .string (if isOpen then "ok" else "degraded")),
    ("version", .string version),
    ("services", .object [("api", .bool true), ("database", .bool isOpen),
      ("llm", .bool client.isAvailable)])])

/-- Handle the event of a body. -/
def processEvent (body : Body) : Action Answer := do
  match bodyData body with
  | .ok (some v) =>
    let id ← Action.newId
    let now ← Action.now
    match Intake.event id now v with
    | .ok e =>
      let stored ← Dispatch.accept e
      answerData (← Dispatch.handle stored).toJson
    | .error (.trigger fault) => return .noTrigger fault.message
    | .error e => Action.fail e
  | .error .unreadable => Action.fail .unreadable
  | _ => return .noTrigger TriggerFault.shape.message

/-- List the workflows. -/
def listWorkflows (target : String) : Action Answer := do
  match queryTruth target "active_only" with
  | .bad _ => return .malformed
  | .good activeOnly =>
    answerData (.array ((← Archive.allWorkflows activeOnly).map Workflow.toJson))

/-- The context in the body of a request for a run. -/
def runContext (body : Option Json) : Validation.Checked Json :=
  match body with
  | none | some .null => .good .null
  | some v => Validation.Checked.map Json.object
      (Validation.record "TriggerWorkflowRequest"
        (fun f => Validation.defaulted f "context" [] Validation.object) v)

/-- Run a workflow by hand. -/
def runWorkflow (slug : String) (body : Option Json) : Action Answer := do
  match runContext body with
  | .bad _ => return .malformed
  | .good context =>
    match ← Action.attempt (Dispatch.trigger slug context) with
    | .ok outcome => answerData outcome.toJson
    | .error (.noWorkflow slug) => return .refused 404 (Failure.noWorkflow slug).message
    | .error e => Action.fail e

/-- Show a run with its log. -/
def showRun (id : String) : Action Answer := do
  match ← Dispatch.status id with
  | none => return .refused 404 s!"Run not found: {id}"
  | some (run, logs) =>
    answerData (.object [("run", run.toJsonWith Timestamp.zuluText),
      ("logs", .array (logs.map fun l => l.toJsonWith Timestamp.zuluText))])

/-- The failure of a request to a store that cannot be opened. -/
def closedStore : Failure := .outside .other "RuntimeError" (some "database unavailable")

/-- Carry an action out if the store can be opened. -/
def withStore (isOpen : Bool) (x : Action Answer) : Action Answer :=
  if isOpen then x else Action.fail closedStore

/-- Answer what a route asks for. -/
def answerRoute (isOpen : Bool) (r : Request) : Route → Action Answer
  | .health => health isOpen
  | .processEvent => withStore isOpen (processEvent r.body)
  | .workflows => withStore isOpen (listWorkflows r.target)
  | .runWorkflow slug =>
    match bodyData r.body with
    | .ok body => withStore isOpen (runWorkflow slug body)
    | .error (.json (.number _)) => return .refused 400 "There was an error parsing the body"
    | .error (.json _) => return .malformed
    | .error e => Action.fail e
  | .showRun id => withStore isOpen (showRun id)

/-- Answer a request. `isOpen` says that the store can be opened. -/
def answer (isOpen : Bool) (r : Request) : Action Answer :=
  match Route.ofRequest r with
  | .found route => answerRoute isOpen r route
  | .wrongMethod => return .wrongMethod
  | .elsewhere => return .elsewhere
  | .unknown => return .unknown

/-- The surroundings in which requests are answered: providers are called in the name of the team
of the settings. -/
def surroundings (office : Office) : Office := office.inNameOf office.settings.team

/-- Start the service, which seeds the store unless the settings say otherwise. -/
def start : Action Unit := do
  let settings ← Action.settings
  if settings.seedOnStart then
    let _ ← Catalog.seed

/-- A path that names nothing changes nothing. -/
theorem run_answer_of_unknown {isOpen : Bool} {r : Request} (h : Route.ofRequest r = .unknown)
    (o : Office) (d : Desk) : (answer isOpen r).run o d = (.done .unknown, d) := by
  simp [answer, h]

end Service

end LeadDesk

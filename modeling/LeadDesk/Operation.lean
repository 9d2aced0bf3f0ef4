import LeadDesk.Dispatch.Basic
/-!
# Operations by name

Every operation of the store, of the dispatch of events and of the providers under a name,
with its arguments and its result as data values. Arguments that are left out have their
defaults; records among them are checked first.
-/

namespace LeadDesk

namespace Operation

/-- An optional record as a data value. -/
def option {α : Type} (f : α → Json) (x : Option α) : Json := (x.map f).getD .null

/-- Records as a data value. -/
def list {α : Type} (f : α → Json) (xs : List α) : Json := .array (xs.map f)

/-- The text that an argument gives. -/
def textOf : Json → String
  | .string s => s
  | v => v.plain

/-- The text of an argument. -/
def text (a : Fields) (key : String) : String := textOf (Fields.getD a key)

/-- The optional text of an argument. -/
def text? (a : Fields) (key : String) : Option String :=
  match Fields.getD a key with
  | .null => none
  | v => some (textOf v)

/-- An argument, or its default. -/
def orDefault (a : Fields) (key : String) (default : Json) : Json :=
  (Fields.get? a key).getD default

/-- The fields of an argument. -/
def fields (a : Fields) (key : String) : Fields := ((Fields.getD a key).fields?).getD []

/-- The limit that the arguments give an operation. Null is no limit. -/
def limit (operation : String) (a : Fields) (default : Int) : Action (Option Int) := do
  Action.guardFault operation
  match Fields.get? a "limit" with
  | none => return some default
  | some .null => return none
  | some v => return some (← Action.ofExcept (Input.integer v))

/-- A record that has been checked. -/
def checked {α : Type} (name : String) (c : Validation.Checked α) : Action α :=
  Action.ofExcept ((c.toExcept name).mapError Failure.invalid)

/-- A run with its log as a data value. -/
def statusJson (status : Option (Run × List RunLog)) : Json :=
  option (fun (run, logs) => .object [("run", run.toJson), ("logs", list RunLog.toJson logs)])
    status

/-- An operation on events. -/
def onEvents (a : Fields) : String → Option (Action Json)
  | "create_event" => some do
    let id ← Action.newId
    let now ← Action.now
    let e ← checked "Event" (Event.check id now (Fields.getD a "event"))
    return (← Archive.createEvent e).toJson
  | "get_event" => some do
    return option Event.toJson (← Archive.getEvent (text a "event_id"))
  | "mark_event_processed" => some do
    Archive.markProcessed (text a "event_id")
    return .null
  | "list_unprocessed_events" => some do
    return list Event.toJson (← Archive.unprocessedEvents
      (← limit "list_unprocessed_events" a 10))
  | "list_entity_events" => some do
    return Input.rows (← Archive.entityEvents (text? a "entity_id")
      (← limit "list_entity_events" a 10))
  | _ => none

/-- An operation on workflows. -/
def onWorkflows (a : Fields) : String → Option (Action Json)
  | "save_workflow" => some do
    let id ← Action.newId
    let w ← checked "WorkflowDefinition" (Workflow.check id (Fields.getD a "definition"))
    return (← Archive.saveWorkflow w).toJson
  | "get_workflow_by_slug" => some do
    return option Workflow.toJson (← Archive.getWorkflow (text a "slug"))
  | "list_workflows" => some do
    return list Workflow.toJson (← Archive.allWorkflows (Fields.getD a "active_only").isGiven)
  | "list_active_workflows" => some do
    return list Workflow.toJson (← Archive.activeWorkflows (text a "trigger_event"))
  | _ => none

/-- An operation on runs. -/
def onRuns (a : Fields) : String → Option (Action Json)
  | "create_run" => some do
    let id ← Action.newId
    let now ← Action.now
    let r ← checked "WorkflowRun" (Run.check id now (Fields.getD a "run"))
    return (← Archive.createRun r).toJson
  | "update_run" => some do
    let u ← Action.ofExcept (RunUpdate.ofFields (fields a "updates"))
    return option Run.toJson (← Archive.updateRun (text a "run_id") u)
  | "get_run" => some do
    return option Run.toJson (← Archive.getRun (text a "run_id"))
  | "list_runs" => some do
    return list Run.toJson (← Archive.recentRuns (text? a "status")
      (← limit "list_runs" a 20))
  | "add_run_log" => some do
    let id ← Action.newId
    let now ← Action.now
    let l ← checked "WorkflowRunLog" (RunLog.check id now (Fields.getD a "log"))
    Archive.addLog l
    return l.toJson
  | "list_run_logs" => some do
    return list RunLog.toJson (← Archive.logsOf (text a "run_id"))
  | _ => none

/-- An operation on the settings of teams. -/
def onTeams (a : Fields) : String → Option (Action Json)
  | "get_integration_credentials" => some do
    return option Json.object (← Archive.credentials (text a "name") (text? a "team_id"))
  | "save_integration" => some do
    return .object (← Archive.saveIntegration (text a "name") (Fields.getD a "credentials")
      (text? a "team_id") (orDefault a "is_enabled" (.bool true)))
  | "get_team_config" => some (Archive.teamConfig (text a "key") (text? a "team_id"))
  | "set_team_config" => some do
    Archive.setTeamConfig (text a "key") (Fields.getD a "value") (text? a "team_id")
      (Fields.getD a "description")
    return .null
  | _ => none

/-- An operation on contacts and companies. -/
def onContacts (a : Fields) : String → Option (Action Json)
  | "get_contact" => some do
    return Input.row? (← Archive.getContact (Fields.getD a "contact_id"))
  | "create_contact" => some do
    return .object (← Archive.createContact (fields a "data"))
  | "update_contact" => some do
    return Input.row?
      (← Archive.updateContact (Fields.getD a "contact_id") (fields a "updates") [])
  | "delete_contact" => some do
    return .bool (← Archive.deleteContact (Fields.getD a "contact_id"))
  | "find_contacts" => some do
    let query ← Action.ofExcept
      (ContactTool.queryOf (Fields.getD a "email") (Fields.getD a "query"))
    return Input.rows (← Archive.findContacts query (Fields.getD a "exclude_id")
      (← limit "find_contacts" a 10))
  | "get_company" => some do
    return Input.row? (← Archive.getCompany (Fields.getD a "company_id"))
  | "get_company_by_domain" => some do
    return Input.row? (← Archive.companyAt (Fields.getD a "domain"))
  | "save_company" => some do
    return .object (← Archive.saveCompany (fields a "data") [] (Fields.getD a "company_id"))
  | _ => none

/-- An operation on what is kept beside contacts. -/
def onDetails (a : Fields) : String → Option (Action Json)
  | "add_contact_note" => some do
    return .object (← Archive.addNote (Fields.getD a "contact_id") (Fields.getD a "content")
      (orDefault a "note_type" (.string "Note")))
  | "list_contact_notes" => some do
    return Input.rows (← Archive.notesOn (Fields.getD a "contact_id")
      (← limit "list_contact_notes" a 15))
  | "create_task" => some do
    return .object (← Archive.createTask (fields a "data"))
  | "list_open_tasks" => some do
    return Input.rows (← Archive.openTasks (Fields.getD a "contact_id"))
  | "create_notification" => some do
    return .object (← Archive.createNotification (fields a "data"))
  | "update_notification" => some do
    return Input.row? (← Archive.updateNotification (Fields.getD a "notification_id")
      (fields a "updates"))
  | _ => none

/-- An operation of the store. -/
def onStore (a : Fields) (name : String) : Option (Action Json) :=
  onEvents a name <|> onWorkflows a name <|> onRuns a name <|> onTeams a name <|>
    onContacts a name <|> onDetails a name

/-- An optional truth value. -/
def truth? : Json → Option Bool
  | .null => none
  | v => some v.isGiven

/-- An operation of the dispatch of events. -/
def onDispatch (a : Fields) : String → Option (Action Json)
  | "dispatch_by_id" => some do
    return (← Dispatch.byId (text a "event_id")).toJson
  | "process_pending" => some do
    return list DispatchResult.toJson (← Dispatch.pending
      (← limit "list_unprocessed_events" a 10))
  | "trigger_workflow" => some do
    return (← Dispatch.trigger (text a "slug") (Fields.getD a "context")).toJson
  | "emit_event" => some do
    let e ← checked Emission.recordName (Emission.check (Fields.getD a "directive"))
    let atOnce := truth? (Fields.getD a "process_immediately")
    return (← Dispatch.emit e (Fields.getD a "team_id") atOnce).toJson
  | "get_run_status" => some do
    return statusJson (← Dispatch.status (text a "run_id"))
  | _ => none

/-- The provider that the arguments name. -/
def provider (a : Fields) : Action Provider := do
  match ← Action.ofExcept (Enrichment.provider? (Fields.getD a "name")) with
  | some p => return p
  | none => Action.fail (.noKey (text a "name"))

/-- An operation of the providers. -/
def onProviders (a : Fields) : String → Option (Action Json)
  | "has" => some do
    return .bool (← Action.ofExcept (Enrichment.provider? (Fields.getD a "name"))).isSome
  | "is_available" => some do
    match ← Action.ofExcept (Enrichment.provider? (Fields.getD a "name")) with
    | some p => return .bool (← Enrichment.isAvailable p)
    | none => return .bool false
  | "credentials_for" => some do
    return option Json.object (← Enrichment.credentials (← provider a))
  | "call" => some do
    Enrichment.callWith (← provider a) (some (Fields.getD a "params"))
  | _ => none

/-- The operation that a word names: what it works on, a point, and a name. -/
def named? (a : Fields) (word : String) : Option (Action Json) :=
  let place := word.toList.takeWhile (· != '.')
  let name := String.ofList (word.toList.drop (place.length + 1))
  match String.ofList place with
  | "repo" => onStore a name
  | "dispatcher" => onDispatch a name
  | "enrichment" => onProviders a name
  | _ => none

/-- Carry out the operation that a word names. -/
def call (word : String) (a : Fields) : Action Json :=
  (named? a word).getD (Action.fail (.noKey word))

end Operation

end LeadDesk

import LeadDesk.Desk.Action
import LeadDesk.Store.Events
import LeadDesk.Store.Runs
import LeadDesk.Store.Workflows
/-!
# The store as actions

Every operation of the store as an action of the desk. An operation has a name under which
the office may let it fail; it takes ids and moments from the desk where it needs them.
-/

namespace LeadDesk

namespace Archive

/-- Ask the store for at most so many records. -/
def ask {α : Type} (operation : String) (limit : Option Int) (f : Store → Except Failure α) :
    Action α :=
  Action.query operation fun s => do
    limit.forM Store.checkInteger
    f s

/-! ## Events -/

/-- Store an event and give the stored form. -/
def createEvent (e : Event) : Action Event :=
  Action.change "create_event" fun s => s.addEvent e

/-- The event with an id. -/
def getEvent (id : String) : Action (Option Event) :=
  Action.query "get_event" fun s => .ok (s.event? id)

/-- Mark an event as processed, if it is there. -/
def markProcessed (id : String) : Action Unit := do
  match ← Action.query "mark_event_processed" fun s => .ok (s.event? id) with
  | none => return ()
  | some _ =>
    let now ← Action.now
    Action.change "mark_event_processed" fun s => .ok ((), s.markProcessed id now)

/-- The oldest events that are not processed. -/
def unprocessedEvents (limit : Option Int) : Action (List Event) :=
  ask "list_unprocessed_events" limit fun s => .ok (s.unprocessed limit)

/-- The most recent events about a record. -/
def entityEvents (entityId : Option String) (limit : Option Int) : Action (List Row) :=
  ask "list_entity_events" limit fun s => .ok (s.entityEvents entityId limit)

/-! ## Workflows -/

/-- Save a workflow under its slug. -/
def saveWorkflow (w : Workflow) : Action Workflow := do
  Action.guardFault "save_workflow"
  let now ← Action.now
  let ids ← Action.newIds w.steps.length
  Action.change "save_workflow" fun s => s.saveWorkflow w now ids

/-- The workflow with a slug. -/
def getWorkflow (slug : String) : Action (Option Workflow) :=
  Action.query "get_workflow_by_slug" fun s => .ok (s.workflow? slug)

/-- All workflows, or all active ones, by slug. -/
def allWorkflows (activeOnly : Bool) : Action (List Workflow) :=
  Action.query "list_workflows" fun s => .ok (s.allWorkflows activeOnly)

/-- The active workflows that a type of event sets off. -/
def activeWorkflows (trigger : String) : Action (List Workflow) :=
  Action.query "list_active_workflows" fun s => .ok (s.activeWorkflows trigger)

/-! ## Runs -/

/-- Store a run and give the stored form. -/
def createRun (r : Run) : Action Run := Action.change "create_run" fun s => s.addRun r

/-- Update a run and give the stored form; `none` when it is not there. -/
def updateRun (id : String) (u : RunUpdate) : Action (Option Run) :=
  Action.change "update_run" fun s => .ok ((s.updateRun id u).run? id, s.updateRun id u)

/-- The run with an id. -/
def getRun (id : String) : Action (Option Run) :=
  Action.query "get_run" fun s => .ok (s.run? id)

/-- The most recent runs, or those of one status. -/
def recentRuns (status : Option String) (limit : Option Int) : Action (List Run) :=
  ask "list_runs" limit fun s => .ok (s.recentRuns status limit)

/-- Add an entry to the log of a run. -/
def addLog (l : RunLog) : Action Unit :=
  Action.change "add_run_log" fun s => (s.addLog l).map fun s => ((), s)

/-- The log of a run. -/
def logsOf (runId : String) : Action (List RunLog) :=
  Action.query "list_run_logs" fun s => .ok (s.logsOf runId)

/-! ## Settings of teams -/

/-- The credentials of an integration. -/
def credentials (integration : String) (team : Option String) : Action (Option Fields) :=
  Action.query "get_integration_credentials" fun s =>
    match s.credentials? integration team with
    | none => .ok none
    | some (.object fields) => .ok (some fields)
    | some v => .error (.wrongKind s!"'{v.kindName}' object is not iterable")

/-- Save the credentials of an integration. -/
def saveIntegration (name : String) (credentials : Json) (team : Option String)
    (isEnabled : Json) : Action Row := do
  Action.guardFault "save_integration"
  let id ← Action.newId
  let now ← Action.now
  Action.change "save_integration" fun s =>
    s.saveIntegration id now name credentials team isEnabled

/-- The value of a setting. -/
def teamConfig (key : String) (team : Option String) : Action Json :=
  Action.query "get_team_config" fun s => .ok ((s.teamConfig? key team).getD .null)

/-- Save a setting. -/
def setTeamConfig (key : String) (value : Json) (team : Option String) (description : Json) :
    Action Unit := do
  Action.guardFault "set_team_config"
  let id ← Action.newId
  let now ← Action.now
  Action.change "set_team_config" fun s =>
    (s.setTeamConfig id now key value team description).map fun s => ((), s)

/-! ## Companies -/

/-- The company with an id. -/
def getCompany (id : Json) : Action (Option Row) :=
  Action.query "get_company" fun s => s.company? id

/-- The first company with a domain. -/
def companyAt (domain : Json) : Action (Option Row) :=
  Action.query "get_company_by_domain" fun s => s.companyAt? domain

/-- Store a company, or update the one with an id. -/
def saveCompany (given : Fields) (moments : List (String × Timestamp)) (id : Json) :
    Action Row := do
  Action.guardFault "save_company"
  let fresh ← Action.newId
  let now ← Action.now
  Action.change "save_company" fun s => s.saveCompany fresh now given moments id

/-! ## Contacts -/

/-- What a contact tells of its company. -/
def companySummary (company : Row) : Json :=
  .object (["id", "name", "domain", "industry"].map fun key => (key, Row.value company key))

/-- The contact with an id, together with a summary of its company. -/
def getContact (id : Json) : Action (Option Row) := do
  match ← Action.query "get_contact" fun s => s.contact? id with
  | none => return none
  | some row =>
    let companyId := Row.value row "company_id"
    let company ← if companyId.isGiven then getCompany companyId else pure none
    return some (Fields.put row "company" ((company.map companySummary).getD .null))

/-- Store a contact. -/
def createContact (given : Fields) : Action Row := do
  Action.guardFault "create_contact"
  let id ← Action.newId
  let now ← Action.now
  Action.change "create_contact" fun s => s.addContact id now given

/-- Update a contact; `none` when it is not there. -/
def updateContact (id : Json) (updates : Fields) (moments : List (String × Timestamp)) :
    Action (Option Row) := do
  Action.guardFault "update_contact"
  let now ← Action.now
  Action.change "update_contact" fun s => s.updateContact id now updates moments

/-- Delete a contact, and whether it was there. -/
def deleteContact (id : Json) : Action Bool :=
  Action.change "delete_contact" fun s => s.deleteContact id

/-- The contacts that are looked for. -/
def findContacts (query : Store.ContactQuery) (except : Json) (limit : Option Int) :
    Action (List Row) :=
  ask "find_contacts" limit fun s => s.findContacts query except limit

/-- Add a note to a contact. -/
def addNote (contactId content noteType : Json) : Action Row := do
  Action.guardFault "add_contact_note"
  let id ← Action.newId
  let now ← Action.now
  Action.change "add_contact_note" fun s => s.addNote id now contactId content noteType

/-- The most recent notes on a contact. -/
def notesOn (contactId : Json) (limit : Option Int) : Action (List Row) :=
  ask "list_contact_notes" limit fun s => s.notesOn contactId limit

/-! ## Tasks and notifications -/

/-- Store a task. -/
def createTask (given : Fields) : Action Row := do
  Action.guardFault "create_task"
  let id ← Action.newId
  let now ← Action.now
  Action.change "create_task" fun s => s.addTask id now given

/-- The open tasks of a contact. -/
def openTasks (contactId : Json) : Action (List Row) :=
  Action.query "list_open_tasks" fun s => s.openTasks contactId

/-- Store a notification. -/
def createNotification (given : Fields) : Action Row := do
  Action.guardFault "create_notification"
  let id ← Action.newId
  let now ← Action.now
  Action.change "create_notification" fun s => s.addNotification id now given

/-- Update a notification; `none` when it is not there. -/
def updateNotification (id : Json) (updates : Fields) : Action (Option Row) :=
  Action.change "update_notification" fun s => s.updateNotification id updates

end Archive

end LeadDesk

import LeadDesk.Catalog.Seed
import LeadDesk.Dispatch.Basic
import LeadDesk.Terminal.Command
import LeadDesk.Terminal.Option
import LeadDesk.Terminal.Screen
/-!
# Carrying out commands

Each command as an action of the desk that gives the parts of a screen and an exit code: zero
when all went well, one when something is not there or a run has failed, two when the words
of the command line cannot be understood.
-/

namespace LeadDesk

namespace Terminal

/-- What a command gives: its exit code and the parts of the screen. -/
abbrev Outcome := Nat × List Part

/-- A text in a style. -/
def styled (style text : String) : String := s!"[{style}]{text}[/{style}]"

/-- The style of a run's status. -/
def runStyle : RunStatus → String
  | .running => "yellow"
  | .completed => "green"
  | .stopped => "cyan"
  | .failed => "red"

/-- The status of a run in its style. -/
def runStatusText (s : RunStatus) : String := styled (runStyle s) s.word

/-- The status of a step in its style. -/
def stepStatusText : StepStatus → String
  | .completed => styled "green" "completed"
  | .failed => styled "red" "failed"
  | .skipped => styled "dim" "skipped"

/-- A line that tells of an error. -/
def errorLine (message : String) : Part := .line (styled "red" "Error:" ++ " " ++ message)

/-- Whether a workflow is active. -/
def activeText (w : Workflow) : String := if w.isActive then "yes" else styled "dim" "no"

/-- A count in front of what it counts, as a title. -/
def countTitle (count : Nat) (what : String) : String := styled "bold" s!"{count} {what}"

/-- A failure shown as an error, with exit code one. -/
def failed (e : Failure) : Outcome := (1, [errorLine e.message])

/-! ## Workflows -/

/-- The cells of a workflow that every list shows. -/
def workflowCells (w : Workflow) : List String :=
  [w.slug, w.trigger, toString w.steps.length, activeText w]

/-- The workflows after they were seeded. -/
def seededTable (ws : List Workflow) : Table :=
  { title := some (countTitle ws.length "Workflows")
    header := ["Slug", "Trigger", "Steps", "Active"], rows := ws.map workflowCells }

/-- All stored workflows. -/
def workflowTable (ws : List Workflow) : Table :=
  { title := some (countTitle ws.length "Workflows")
    header := ["Slug", "Trigger", "Steps", "Active", "Description"]
    rows := ws.map fun w => workflowCells w ++ [short (.string w.description) 50] }

/-- The steps of a workflow. -/
def stepTable (w : Workflow) : Table :=
  { title := some w.slug, header := ["#", "Name", "Type", "Output", "On error"]
    rows := w.orderedSteps.map fun s =>
      [toString s.order, s.name, s.action.word, s.output.getD "", s.onFailure.word] }

/-- The files at hand, by their paths, each with the document that it holds. -/
abbrev Files := List (String × Json)

/-- Save the workflows of a file, or those that come with the desk, and list all workflows. -/
def seedAll (files : Files) (file : Option String) : Action (List Workflow) := do
  let _ ←
    match file with
    | none => Catalog.seed
    | some path =>
      match files.find? (·.1 == path) with
      | some (_, document) => Catalog.seedDocument (Catalog.plainPath path) document
      | none => Action.fail (.noFile (Catalog.plainPath path))
  Archive.allWorkflows false

/-- Save workflows and show them. -/
def seed (files : Files) (file : Option String) : Action Outcome := do
  match ← Action.attempt (seedAll files file) with
  | .ok ws =>
    return (0, [.line (styled "bold green" "Workflows seeded."), .table (seededTable ws)])
  | .error e => return failed e

/-- List the workflows. -/
def listWorkflows (activeOnly steps : Bool) : Action Outcome := do
  match ← Archive.allWorkflows activeOnly with
  | [] => return (0, [.line (styled "yellow" "No workflows stored." ++ " " ++
      styled "dim" ("Run " ++ styled "cyan" "crmflow seed" ++ " first."))])
  | w :: more =>
    let all := w :: more
    return (0, .table (workflowTable all) ::
      (if steps then all.map fun w => .table (stepTable w) else []))

/-- The lines of the panel for the outcome of a run. -/
def outcomeLines (o : RunOutcome) : List String :=
  [styled "bold" "Run:" ++ "    " ++ (Json.ofText? o.runId).plain,
    styled "bold" "Status:" ++ " " ++ runStatusText o.status,
    styled "bold" "Steps:" ++ "  " ++ toString o.stepsExecuted] ++
  (match o.error with
    | none | some "" => []
    | some e => [styled "bold" "Error:" ++ "  " ++ styled "red" e]) ++
  (if o.emitted.isEmpty then []
    else [styled "bold" "Emitted:" ++ " " ++ ", ".intercalate o.emitted])

/-- Run a workflow by hand. -/
def triggerWorkflow (slug : String) (context : Option String) : Action Outcome := do
  match objectOption "--context" context with
  | .error (.option message) => return (2, [errorLine message])
  | .error e => Action.fail e
  | .ok fields =>
    match ← Action.attempt (Dispatch.trigger slug (.object fields)) with
    | .error (.noWorkflow slug) =>
      return (1, [.line (styled "red" (Failure.noWorkflow slug).message)])
    | .error e => Action.fail e
    | .ok outcome =>
      return (if outcome.success then 0 else 1,
        [.panel (styled "cyan" slug) (outcomeLines outcome)])

/-! ## Events -/

/-- The cells of the outcome of a run. -/
def outcomeCells (o : RunOutcome) : List String :=
  [o.slug.getD "",
    match o.runId with
      | none | some "" => styled "dim" "-"
      | some id => id,
    runStatusText o.status, toString o.stepsExecuted, o.error.getD ""]

/-- What became of an event. -/
def dispatchPart (d : DispatchResult) : Part :=
  if d.skipped || d.results.isEmpty then
    .line (styled "dim" ((Json.ofText? d.eventId).plain ++ ":") ++ " " ++
      (Json.ofText? d.message).plain)
  else
    .table { title := some ("Event " ++ (Json.ofText? d.eventId).plain)
             header := ["Workflow", "Run", "Status", "Steps", "Error"]
             rows := d.results.map outcomeCells }

/-- Handle the oldest events that wait. -/
def processEvents (limit : Int) : Action Outcome := do
  match ← Action.attempt (Dispatch.pending (some limit)) with
  | .error e => return failed e
  | .ok [] => return (0, [.line (styled "dim" "No pending events.")])
  | .ok results =>
    return (0, results.map dispatchPart ++
      [.line (styled "bold" (toString results.length) ++ " event(s) processed.")])

/-- Handle one stored event. -/
def dispatchEvent (id : String) : Action Outcome := do
  match ← Action.attempt (Dispatch.byId id) with
  | .ok d => return (0, [dispatchPart d])
  | .error (.noEvent id) => return (1, [.line (styled "red" (Failure.noEvent id).message)])
  | .error e => Action.fail e

/-- Emit an event. -/
def emitEvent (type : String) (entityType entityId payload : Option String) (atOnce : Bool) :
    Action Outcome := do
  match objectOption "--payload" payload with
  | .error (.option message) => return (2, [errorLine message])
  | .error e => Action.fail e
  | .ok fields =>
    let settings ← Action.settings
    let emission : Emission :=
      { eventType := type, entityType := entityType, entityId := entityId, payload := fields }
    let e ← Dispatch.emit emission (Json.ofText? settings.team) (some false)
    let line := Part.line (styled "green" "Emitted" ++ " " ++ e.type ++ " " ++
      styled "dim" ("(" ++ e.id ++ ")"))
    if atOnce then return (0, [line, dispatchPart (← Dispatch.handle e)])
    else return (0, [line])

/-! ## Runs -/

/-- What a run is about. -/
def entityText (r : Run) : String :=
  match r.entityId with
  | none | some "" => ""
  | some id => (Json.ofText? r.entityType).plain ++ ":" ++ id

/-- The cells of a run. -/
def runCells (r : Run) : List String :=
  [r.id, runStatusText r.status, r.triggeredBy, entityText r, r.startedAt.shortText,
    short (.string (r.error.getD "")) 40]

/-- List the most recent runs. -/
def listRuns (status : Option String) (limit : Int) : Action Outcome := do
  match ← Archive.recentRuns status (some limit) with
  | [] => return (0, [.line (styled "dim" "No runs found.")])
  | r :: more =>
    let all := r :: more
    return (0, [.table {
      title := some (countTitle all.length "Runs")
      header := ["Run", "Status", "Triggered by", "Entity", "Started", "Error"]
      rows := all.map runCells }])

/-- What the entry of a log shows besides its step: the error, or else the output. -/
def detail (l : RunLog) : String :=
  match l.error with
  | none | some "" => short (if l.output.isNull then .string "" else l.output) 60
  | some e => e

/-- The cells of the entry of a log. -/
def logCells (l : RunLog) : List String :=
  [toString l.stepOrder, l.stepName, stepStatusText l.status, detail l]

/-- Show one run with its log. -/
def showRun (id : String) : Action Outcome := do
  match ← Dispatch.status id with
  | none => return (1, [.line (styled "red" s!"Run not found: {id}")])
  | some (run, logs) =>
    let head := Part.line (styled "bold" "Run" ++ " " ++ styled "cyan" run.id ++ "  " ++
      runStatusText run.status ++ "  " ++ styled "dim" s!"triggered by {run.triggeredBy}")
    let error := match run.error with
      | none | some "" => []
      | some e => [Part.line (styled "red" e)]
    let table := Part.table
      { header := ["#", "Step", "Status", "Output / error"], rows := logs.map logCells }
    return (0, head :: error ++ [table])

/-! ## The command line -/

/-- What the command line shows when it is asked for help. -/
def helpLines : List String := [
  "Commands: init-db, seed, process, dispatch, emit, workflows, trigger, runs, run"]

/-- Carry out a command. -/
def Command.carryOut (files : Files) : Command → Action Outcome
  | version => return (0, [.line "crmflow v0.1.0"])
  | help => return (0, helpLines.map .line)
  | setUp => return (0, [.line (styled "bold green" "Database ready.")])
  | .seed file => Terminal.seed files file
  | process limit => processEvents limit
  | dispatch id => dispatchEvent id
  | emit type entityType entityId payload atOnce =>
    emitEvent type entityType entityId payload atOnce
  | workflows activeOnly steps => listWorkflows activeOnly steps
  | trigger slug context => triggerWorkflow slug context
  | runs status limit => listRuns status limit
  | run id => showRun id

/-- Carry out the words of a command line. A failure that no command expects shows nothing. -/
def carryOut (files : Files) (words : List String) : Action Screen := do
  match Command.parse words with
  | none => return { exit := 2 }
  | some command =>
    match ← Action.attempt (command.carryOut files) with
    | .ok (exit, parts) => return showAll exit parts
    | .error _ => return { exit := 1 }

/-- The surroundings in which commands are carried out: providers are called in the name of no
team. -/
def surroundings (office : Office) : Office := office.inNameOf none

/-- Words that make no command leave the desk as it is. -/
theorem run_carryOut_of_parse_eq_none {files : Files} {words : List String}
    (h : Command.parse words = none) (o : Office) (d : Desk) :
    (carryOut files words).run o d = (.done { exit := 2 }, d) := by
  simp [carryOut, h]

end Terminal

end LeadDesk

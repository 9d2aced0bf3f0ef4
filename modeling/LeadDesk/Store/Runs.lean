import LeadDesk.Store.Basic
/-!
# Stored runs and logs

A run is stored as running. Its status, its end, its contexts and its error may be updated;
an entry of its log is only ever added.
-/

namespace LeadDesk

/-- What an update of a run may set. A field that is `none` stays as it is. -/
structure RunUpdate where
  status : Option RunStatus := none
  completedAt : Option (Option Timestamp) := none
  context : Option Fields := none
  finalContext : Option (Option Fields) := none
  error : Option (Option String) := none
  deriving Inhabited

namespace RunUpdate

/-- The names of the fields of a run that may be updated. -/
def fieldNames : List String :=
  ["status", "completed_at", "error_message", "final_context", "context"]

/-- The update that one field asks for. A moment cannot be given as data. -/
def setField (u : RunUpdate) (name : String) (v : Json) : Except Failure RunUpdate :=
  let checked {α : Type} (check : Validation.Check α) : Except Failure α :=
    match (Validation.Checked.under (.key name) (check v)).toExcept "WorkflowRun" with
    | .ok a => .ok a
    | .error report => .error (.invalid report)
  match name with
  | "status" => (checked (Validation.choice RunStatus.words)).map fun s =>
    { u with status := some s }
  | "completed_at" =>
    if v.isNull then .ok { u with completedAt := some none } else .error .unstorable
  | "error_message" => (Column.textForm v).bind fun v =>
    .ok { u with error := some v.text? }
  | "final_context" => (checked (Validation.optional Validation.object)).map fun c =>
    { u with finalContext := some c }
  | _ => (checked (Validation.optional Validation.object)).map fun c =>
    { u with context := some (c.getD []) }

/-- The update that fields ask for. -/
def ofFields (fields : Fields) : Except Failure RunUpdate :=
  match (Fields.keys fields).filter (!fieldNames.contains ·) with
  | [] => fields.foldlM (fun u f => setField u f.1 f.2) {}
  | unknown => .error (.fixedRunFields (unknown.mergeSort fun a b => a ≤ b))

/-- The run with an update. -/
def apply (u : RunUpdate) (r : Run) : Run :=
  { r with
    status := u.status.getD r.status
    completedAt := (u.completedAt.map fun t => t.map Timestamp.atUniversal).getD r.completedAt
    context := u.context.getD r.context
    finalContext := u.finalContext.getD r.finalContext
    error := u.error.getD r.error }

end RunUpdate

namespace Store

/-- A stored run as it is read. A run that nothing is known to have triggered counts as manual. -/
def readRun (r : Run) : Run :=
  { r with triggeredBy := if r.triggeredBy == "" then "manual" else r.triggeredBy }

/-- The run with an id. -/
def run? (s : Store) (id : String) : Option Run := (s.runs.find? (·.id == id)).map readRun

/-- The form in which a new run is stored. It has no end yet. -/
def storedRun (r : Run) : Run :=
  { r with
    startedAt := r.startedAt.atUniversal, completedAt := none, finalContext := none,
    error := none }

/-- Store a run. -/
def addRun (s : Store) (r : Run) : Except Failure (Run × Store) :=
  if (s.run? r.id).isSome then .error .duplicateKey
  else .ok (readRun (storedRun r), { s with runs := s.runs ++ [storedRun r] })

/-- Update a run. -/
def updateRun (s : Store) (id : String) (u : RunUpdate) : Store :=
  { s with runs := s.runs.map fun r => if r.id == id then u.apply r else r }

/-- The most recent runs, newest first, or those of one status. -/
def recentRuns (s : Store) (status : Option String) (limit : Option Int) : List Run :=
  let chosen := match status with
    | none | some "" => s.runs
    | some word => s.runs.filter (·.status.word == word)
  (Row.upTo limit (chosen.mergeSort fun a b => b.startedAt.wall ≤ a.startedAt.wall)).map readRun

/-- The form in which an entry of a log is stored. -/
def storedLog (l : RunLog) : RunLog :=
  { l with
    input := Column.dataForm l.input, output := Column.dataForm l.output
    executedAt := l.executedAt.atUniversal }

/-- Check the integers of an entry. -/
def checkLog (l : RunLog) : Except Failure Unit := do
  checkInteger l.stepOrder
  match l.tokensUsed with
  | some n => checkInteger n
  | none => return ()

/-- Add an entry to a log. -/
def addLog (s : Store) (l : RunLog) : Except Failure Store :=
  match checkLog l with
  | .error e => .error e
  | .ok _ =>
    if s.logs.any (·.id == l.id) then .error .duplicateKey
    else .ok { s with logs := s.logs ++ [storedLog l] }

/-- Which entry of a log comes first: by the order of its step, then by its moment. -/
def loggedBefore (a b : RunLog) : Bool :=
  if a.stepOrder = b.stepOrder then a.executedAt.wall ≤ b.executedAt.wall
  else a.stepOrder ≤ b.stepOrder

/-- The log of a run. -/
def logsOf (s : Store) (runId : String) : List RunLog :=
  (s.logs.filter (·.runId == runId)).mergeSort loggedBefore

/-- An update of the runs with one id leaves the search for another id as it is. -/
theorem find?_map_apply (rs : List Run) (u : RunUpdate) {id other : String} (h : other ≠ id) :
    (rs.map fun r => if r.id == id then u.apply r else r).find? (·.id == other) =
      rs.find? (·.id == other) := by
  induction rs with
  | nil => rfl
  | cons r rest ih =>
    rw [List.map_cons, List.find?_cons, List.find?_cons, ih]
    by_cases hr : r.id = id
    · have hu : (u.apply r).id = r.id := rfl
      have hne : (id == other) = false := beq_eq_false_iff_ne.2 (Ne.symm h)
      simp [hr, hu, hne]
    · simp [hr]

/-- An update of one run leaves every other run as it is. -/
theorem run?_updateRun_of_ne (s : Store) (u : RunUpdate) {id other : String} (h : other ≠ id) :
    (s.updateRun id u).run? other = s.run? other := by
  exact congrArg (Option.map readRun) (find?_map_apply s.runs u h)

end Store

end LeadDesk

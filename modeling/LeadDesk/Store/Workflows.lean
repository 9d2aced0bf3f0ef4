import LeadDesk.Store.Basic
/-!
# Stored workflows

A workflow is stored under its slug. Saving under a slug that is taken replaces the stored
workflow and all of its steps, but keeps its id and its moment of creation.
-/

namespace LeadDesk

namespace Store

/-- The stored head of a workflow with a slug. -/
def workflowRecord? (s : Store) (slug : String) : Option WorkflowRecord :=
  s.workflows.find? (·.slug == slug)

/-- The stored steps of a workflow, by ascending order. -/
def stepsOf (s : Store) (workflowId : String) : List WorkflowStep :=
  (((s.steps.filter (·.workflowId == workflowId)).mergeSort fun a b =>
      a.step.order ≤ b.step.order)).map (·.step)

/-- The workflow that a stored head stands for. A version of zero counts as the first. -/
def workflow (s : Store) (r : WorkflowRecord) : Workflow :=
  { id := r.id, slug := r.slug, name := r.name, description := r.description,
    category := r.category, trigger := r.trigger, isActive := r.isActive,
    version := if r.version = 0 then 1 else r.version, steps := s.stepsOf r.id }

/-- The workflow with a slug. -/
def workflow? (s : Store) (slug : String) : Option Workflow :=
  (s.workflowRecord? slug).map s.workflow

/-- The category of a workflow when it is first stored. -/
def generalCategory : String := "general"

/-- The stored steps of a workflow under new ids. -/
def stepRecords (workflowId : String) (now : Timestamp) (ids : Nat → String) :
    List WorkflowStep → List StepRecord
  | [] => []
  | step :: rest =>
    { id := ids 0, workflowId := workflowId, step := { step with id := some (ids 0) },
      createdAt := now.atUniversal } ::
    stepRecords workflowId now (fun n => ids (n + 1)) rest

/-- The head of a workflow that is stored for the first time. -/
def newRecord (w : Workflow) (now : Timestamp) : WorkflowRecord :=
  { id := w.id, slug := w.slug, name := w.name, description := w.description,
    category := some (w.category.getD generalCategory), trigger := w.trigger,
    version := w.version, isActive := w.isActive, createdAt := now.atUniversal,
    updatedAt := now.atUniversal }

/-- The head of a workflow that replaces a stored one. -/
def renewedRecord (r : WorkflowRecord) (w : Workflow) (now : Timestamp) : WorkflowRecord :=
  { r with
    name := w.name, description := w.description, category := w.category, trigger := w.trigger,
    version := w.version, isActive := w.isActive, updatedAt := now.atUniversal }

/-- Check the integers of a workflow. -/
def checkWorkflow (w : Workflow) : Except Failure Unit := do
  checkInteger w.version
  w.steps.forM fun step => checkInteger step.order

/-- Save a workflow under its slug; `ids` gives the ids of its steps. -/
def saveWorkflow (s : Store) (w : Workflow) (now : Timestamp) (ids : Nat → String) :
    Except Failure (Workflow × Store) :=
  match checkWorkflow w, s.workflowRecord? w.slug with
  | .error e, _ => .error e
  | .ok _, none =>
    if s.workflows.any (·.id == w.id) then .error .duplicateKey
    else
      let r := newRecord w now
      let t := { s with
        workflows := s.workflows ++ [r]
        steps := s.steps ++ stepRecords r.id now ids w.orderedSteps }
      .ok (t.workflow r, t)
  | .ok _, some old =>
    let r := renewedRecord old w now
    let t := { s with
      workflows := s.workflows.map fun o => if o.slug == w.slug then r else o
      steps := s.steps.filter (·.workflowId != old.id) ++
        stepRecords old.id now ids w.orderedSteps }
    .ok (t.workflow r, t)

/-- All workflows, or all active ones, by slug. -/
def allWorkflows (s : Store) (activeOnly : Bool) : List Workflow :=
  ((s.workflows.filter fun r => !activeOnly || r.isActive).mergeSort fun a b =>
    a.slug ≤ b.slug).map s.workflow

/-- The order in which the workflows of one trigger run: oldest first, then by slug. -/
def runsBefore (a b : WorkflowRecord) : Bool :=
  if a.createdAt.wall = b.createdAt.wall then a.slug ≤ b.slug
  else a.createdAt.wall ≤ b.createdAt.wall

/-- The active workflows that a type of event sets off. -/
def activeWorkflows (s : Store) (trigger : String) : List Workflow :=
  ((s.workflows.filter fun r => r.trigger == trigger && r.isActive).mergeSort runsBefore).map
    s.workflow

end Store

end LeadDesk

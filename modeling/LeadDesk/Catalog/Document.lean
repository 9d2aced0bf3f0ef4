import LeadDesk.Catalog.Bundled
import LeadDesk.Failure
import LeadDesk.Text.Case
/-!
# Documents of workflows

A document lists workflows and may leave out the order of steps: a step without one takes
its position in the list, from one. Words for actions and failure policies may be written
in any case. `Catalog.ofDocument` reads a document; it refuses a workflow in which two
steps have the same order.
-/

namespace LeadDesk

/-- The id that a number stands for. -/
def freshId (n : Nat) : String := "00000000-0000-4000-8000-" ++ Timestamp.padded 12 n

namespace Catalog

/-- A step as a document writes it; its order may be left out. -/
structure WrittenStep where
  order : Option Int
  step : WorkflowStep

/-- A word in lower case; other values as they are. -/
def lowerWord : Json → Json
  | .string s => .string (Text.lower s)
  | v => v

/-- Check a guard of a document. -/
def checkGuard : Validation.Check Guard :=
  Validation.record "ConditionYAML" fun f =>
    Guard.mk <$> Validation.required f "field" Validation.text
      <*> Validation.required f "operator" Validation.text
      <*> Validation.defaulted f "value" .null Validation.any

/-- Check a step of a document. -/
def checkStep : Validation.Check WrittenStep :=
  Validation.record "StepYAML" fun f =>
    (fun name description order action config guards output policy =>
      { order := order
        step :=
          { order := 0, name := name, description := description, action := action,
            config := config, guards := guards, output := output, onFailure := policy } })
      <$> Validation.required f "name" Validation.text
      <*> Validation.defaulted f "description" "" Validation.text
      <*> Validation.defaulted f "step_order" none (Validation.optional Validation.integer)
      <*> Validation.required f "action_type"
        (Validation.choice ActionType.words ∘ lowerWord)
      <*> Validation.defaulted f "action_config" [] Validation.object
      <*> Validation.defaulted f "run_conditions" [] (Validation.list checkGuard)
      <*> Validation.defaulted f "output_variable" none Validation.optionalText
      <*> Validation.defaulted f "on_error" .stop
        (Validation.choice FailurePolicy.words ∘ lowerWord)

/-- A workflow as a document writes it. -/
structure WrittenWorkflow where
  slug : String
  name : String
  description : String
  category : Option String
  trigger : String
  isActive : Bool
  version : Int
  steps : List WrittenStep

/-- Check a workflow of a document. -/
def checkWorkflow : Validation.Check WrittenWorkflow :=
  Validation.record "WorkflowYAML" fun f =>
    WrittenWorkflow.mk <$> Validation.required f "slug" Validation.text
      <*> Validation.required f "name" Validation.text
      <*> Validation.defaulted f "description" "" Validation.text
      <*> Validation.defaulted f "category" none Validation.optionalText
      <*> Validation.required f "trigger_event" Validation.text
      <*> Validation.defaulted f "is_active" true Validation.truth
      <*> Validation.defaulted f "version" 1 Validation.integer
      <*> Validation.defaulted f "steps" [] (Validation.list checkStep)

/-- Check a whole document. -/
def checkDocument : Validation.Check (List WrittenWorkflow) :=
  Validation.record "WorkflowsConfig" fun f =>
    Validation.defaulted f "workflows" [] (Validation.list checkWorkflow)

/-- The order of a written step at a position; an order of zero counts as none. -/
def WrittenStep.orderAt (position : Int) (s : WrittenStep) : Int :=
  match s.order with
  | some n => if n = 0 then position else n
  | none => position

/-- The steps of a list from a position on, each with its order. -/
def placeSteps (position : Int) : List WrittenStep → List WorkflowStep
  | [] => []
  | s :: rest => { s.step with order := s.orderAt position } :: placeSteps (position + 1) rest

/-- The first order that an earlier step has as well. -/
def repeatedOrder? (seen : List Int) : List WorkflowStep → Option Int
  | [] => none
  | s :: rest => if s.order ∈ seen then some s.order else repeatedOrder? (s.order :: seen) rest

/-- The workflow that a document writes, under an id. -/
def WrittenWorkflow.toWorkflow (id : String) (w : WrittenWorkflow) : Except Failure Workflow :=
  let steps := placeSteps 1 w.steps
  match repeatedOrder? [] steps with
  | some n =>
    .error (.catalog s!"Workflow '{w.slug}' has duplicate step_order values"
      [s!"duplicate step_order {n} in {w.slug}"])
  | none =>
    .ok { id := id, slug := w.slug, name := w.name, description := w.description,
          category := w.category, trigger := w.trigger, isActive := w.isActive,
          version := w.version, steps := steps }

/-- The workflows of a list, with ids from a number on. -/
def toWorkflows (firstId : Nat) : List WrittenWorkflow → Except Failure (List Workflow)
  | [] => .ok []
  | w :: rest => do
    let workflow ← w.toWorkflow (freshId firstId)
    let more ← toWorkflows (firstId + 1) rest
    return workflow :: more

/-- The path of a file without empty parts and without parts that stay in place. -/
def plainPath (path : String) : String :=
  let parts := (splitAtEach '/' path.toList).filter fun part => !part.isEmpty && part != ['.']
  let rest := "/".intercalate (parts.map String.ofList)
  if path.toList.head? == some '/' then "/" ++ rest else if rest == "" then "." else rest

/-- The workflows of a document that is read from a file. An empty document has none. -/
def ofDocument (firstId : Nat) (file : String) (document : Json) :
    Except Failure (List Workflow) :=
  match checkDocument (document.orElse (.object [("workflows", .array [])])) with
  | .bad violations =>
    .error (.catalog s!"Invalid workflow file {file}" (violations.map (·.complaint.message)))
  | .good ws => toWorkflows firstId ws

/-- Placing steps keeps their number. -/
theorem length_placeSteps (position : Int) (ss : List WrittenStep) :
    (placeSteps position ss).length = ss.length := by
  induction ss generalizing position with
  | nil => rfl
  | cons s rest ih => simp [placeSteps, ih]

end Catalog

end LeadDesk

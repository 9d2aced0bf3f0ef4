import LeadDesk.Condition.Guard
import LeadDesk.Validation.Scalar
/-!
# Workflows

A workflow is a list of steps that an event of one type sets off. Each step has an
action with its configuration, guards that must hold before it runs, the name of the
variable that takes its output, and a policy for its failure. The place of a step is
its order, not its position in the list (`Workflow.orderedSteps`).
-/

namespace LeadDesk

/-- What a step does. -/
inductive ActionType where
  | toolCall
  | prompt
  | condition
  | branch
  deriving DecidableEq, Repr, Inhabited

namespace ActionType

/-- The action types with the words that name them. -/
def words : List (String × ActionType) :=
  [("tool_call", toolCall), ("ai_prompt", prompt), ("condition_check", condition),
    ("branch", branch)]

/-- The word for an action type. -/
def word : ActionType → String
  | toolCall => "tool_call"
  | prompt => "ai_prompt"
  | condition => "condition_check"
  | branch => "branch"

end ActionType

/-- What the failure of a step does to its run. -/
inductive FailurePolicy where
  | goOn
  | stop
  deriving DecidableEq, Repr, Inhabited

namespace FailurePolicy

/-- The policies with the words that name them. -/
def words : List (String × FailurePolicy) := [("continue", goOn), ("stop", stop)]

/-- The word for a policy. -/
def word : FailurePolicy → String
  | goOn => "continue"
  | stop => "stop"

end FailurePolicy

/-- A step of a workflow. -/
structure WorkflowStep where
  id : Option String := none
  order : Int
  name : String
  description : String := ""
  action : ActionType
  config : Fields := []
  guards : List Guard := []
  output : Option String := none
  onFailure : FailurePolicy := .stop
  deriving Inhabited

/-- A workflow. -/
structure Workflow where
  id : String
  slug : String
  name : String
  description : String := ""
  category : Option String := none
  trigger : String
  isActive : Bool := true
  version : Int := 1
  steps : List WorkflowStep := []
  deriving Inhabited

namespace Workflow

/-- The steps by ascending order; steps of one order keep their positions. -/
def orderedSteps (w : Workflow) : List WorkflowStep :=
  w.steps.mergeSort fun a b => a.order ≤ b.order

/-- Ordering the steps keeps each of them. -/
theorem orderedSteps_perm (w : Workflow) : w.orderedSteps.Perm w.steps :=
  List.mergeSort_perm _ _

end Workflow

namespace Guard

/-- Check the fields of a guard. -/
def check : Validation.Check Guard :=
  Validation.record "Condition" fun f =>
    Guard.mk <$> Validation.required f "field" Validation.text
      <*> Validation.required f "operator" Validation.text
      <*> Validation.defaulted f "value" .null Validation.any

end Guard

namespace WorkflowStep

/-- Check the fields of a step. -/
def check : Validation.Check WorkflowStep :=
  Validation.record "WorkflowStep" fun f =>
    WorkflowStep.mk <$> Validation.defaulted f "id" none Validation.optionalText
      <*> Validation.required f "step_order" Validation.integer
      <*> Validation.required f "name" Validation.text
      <*> Validation.defaulted f "description" "" Validation.text
      <*> Validation.required f "action_type" (Validation.choice ActionType.words)
      <*> Validation.defaulted f "action_config" [] Validation.object
      <*> Validation.defaulted f "run_conditions" [] (Validation.list Guard.check)
      <*> Validation.defaulted f "output_variable" none Validation.optionalText
      <*> Validation.defaulted f "on_error" .stop (Validation.choice FailurePolicy.words)

/-- A step as a data value. -/
def toJson (s : WorkflowStep) : Json :=
  .object [
    ("id", Json.ofText? s.id),
    ("step_order", .int s.order),
    ("name", .string s.name),
    ("description", .string s.description),
    ("action_type", .string s.action.word),
    ("action_config", .object s.config),
    ("run_conditions", .array (s.guards.map Guard.toJson)),
    ("output_variable", Json.ofText? s.output),
    ("on_error", .string s.onFailure.word)]

end WorkflowStep

namespace Workflow

/-- Check the fields of a workflow; `freshId` is its id when none is given. -/
def check (freshId : String) : Validation.Check Workflow :=
  Validation.record "WorkflowDefinition" fun f =>
    Workflow.mk <$> Validation.defaulted f "id" freshId Validation.text
      <*> Validation.required f "slug" Validation.text
      <*> Validation.required f "name" Validation.text
      <*> Validation.defaulted f "description" "" Validation.text
      <*> Validation.defaulted f "category" none Validation.optionalText
      <*> Validation.required f "trigger_event" Validation.text
      <*> Validation.defaulted f "is_active" true Validation.truth
      <*> Validation.defaulted f "version" 1 Validation.integer
      <*> Validation.defaulted f "steps" [] (Validation.list WorkflowStep.check)

/-- A workflow as a data value. -/
def toJson (w : Workflow) : Json :=
  .object [
    ("id", .string w.id),
    ("slug", .string w.slug),
    ("name", .string w.name),
    ("description", .string w.description),
    ("category", Json.ofText? w.category),
    ("trigger_event", .string w.trigger),
    ("is_active", .bool w.isActive),
    ("version", .int w.version),
    ("steps", .array (w.steps.map WorkflowStep.toJson))]

end Workflow

end LeadDesk

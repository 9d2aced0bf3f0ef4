import LeadDesk.Template.Basic
import LeadDesk.Tool.Registry
import LeadDesk.Workflow.BranchAction
import LeadDesk.Workflow.Record
/-!
# Carrying out branch actions

A descriptor is filled from the context of the run and brought into its one form; then its
tool is called, its emission is requested, and its stop is passed on, in this order. The
failure of the tool is the failure of the step and nothing else happens.
-/

namespace LeadDesk

/-- The failed step of a call that has failed. The failure is logged under the name of what was
called, and a name that cannot be written is a failure of its own. -/
def StepResult.ofFailure (name : Json) (e : Failure) (input : Option Json) :
    Except Failure StepResult :=
  if Template.isWritable name then .ok (.fail e.message input) else .error (.number .unwritable)

namespace BranchAction

/-- The error of a request for an event that has no type. -/
def untypedEmission : String := "emit_event requires event_type"

/-- Call the tool of an action. The output names the tool; without a tool it is empty. -/
def callTool (a : BranchAction) : Action Json :=
  match a.tool with
  | none => return .empty
  | some tool => do
    let v ← Registry.invoke tool (some (.object a.toolInput))
    return .object [("action", tool), ("result", v)]

/-- The result of an action whose tool has given an output. -/
def resultOf (a : BranchAction) (output input : Json) : StepResult :=
  let result : StepResult :=
    { success := true, output := some output, input := some input, emit := a.emit,
      stop := a.stop, stopReason := if a.stop then a.reason else none }
  match a.emit with
  | some e => if e.eventType == "" then .fail untypedEmission (some input) else result
  | none => result

/-- Carry an action out. The input is what the result shows as the input of its step. -/
def carryOut (a : BranchAction) (input : Json) : Action StepResult := do
  match ← Action.attempt a.callTool with
  | .ok output => return a.resultOf output input
  | .error e => Action.ofExcept (StepResult.ofFailure (a.tool.getD .null) e (some input))

/-- The result of a branch in which nothing is to be done. -/
def nothing (input : Json) : StepResult :=
  { success := true, output := some .null, input := some input }

/-- The action that a filled descriptor asks for. -/
def ofDescriptor (fields : Fields) (context : Json) :
    Except Failure (Option BranchAction) :=
  match Template.resolveFields context (Fields.drop fields "condition") with
  | .error e => .error (.number e)
  | .ok filled => (parse? filled).mapError Failure.invalid

/-- Carry out what a descriptor asks for. -/
def apply (descriptor context input : Json) : Action StepResult :=
  if !descriptor.isGiven then return nothing input
  else match descriptor with
    | .object fields => do
      match ← Action.ofExcept (ofDescriptor fields context) with
      | some a => a.carryOut input
      | none => return nothing input
    | v => Action.fail (.lacks v.kindName "items")

/-- An action without a tool and without an emission succeeds with an empty output. -/
theorem resultOf_of_emit_eq_none {a : BranchAction} (h : a.emit = none) (output input : Json) :
    (a.resultOf output input).success = true := by
  simp [resultOf, h]

end BranchAction

end LeadDesk

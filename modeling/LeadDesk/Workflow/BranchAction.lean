import LeadDesk.Workflow.Event
/-!
# Branch actions

What a condition or a branch does when it is taken. A descriptor names an action,
either `stop`, `continue`, `emit_event` or a tool whose input is the rest of the
descriptor, and may ask under `then` and `finally` for an emission or a stop
afterwards. `BranchAction.parse?` brings all forms into one.
-/

namespace LeadDesk

/-- What to do in a branch: call a tool, then emit an event, then stop. The tool is named by
whatever value the descriptor gives. -/
structure BranchAction where
  stop : Bool
  reason : Option String
  emit : Option Emission
  tool : Option Json
  toolInput : Fields
  deriving Inhabited

namespace BranchAction

/-- The keys of a descriptor that are not input for its tool. A reason is input as well. -/
def reservedKeys : List String :=
  ["action", "then", "finally", "event_type", "payload", "condition", "entity_type", "entity_id"]

/-- The name that reports give to the record. -/
def recordName : String := "BranchAction"

/-- The value is the given word. -/
def isWord (v : Json) (word : String) : Bool :=
  match v with
  | .string s => s == word
  | _ => false

/-- Check the reason of a descriptor. -/
def checkReason (f : Fields) : Except Validation.Report (Option String) :=
  (Validation.Checked.under (.key "reason")
    (Validation.optionalText (Fields.getD f "reason"))).toExcept recordName

/-- The emission that a descriptor asks for. -/
def emission (f : Fields) : Except Validation.Report Emission :=
  (Emission.check (.object [
    ("event_type", (Fields.getD f "event_type").orElse (.string "")),
    ("entity_type", Fields.getD f "entity_type"),
    ("entity_id", Fields.getD f "entity_id"),
    ("payload", (Fields.getD f "payload").orElse (.object []))])).toExcept Emission.recordName

/-- The descriptor asks for an emission. -/
def emits (f : Fields) : Bool :=
  isWord (Fields.getD f "action") "emit_event" || isWord (Fields.getD f "then") "emit_event"

/-- The descriptor asks for a stop after its action. -/
def stopsAfter (f : Fields) : Bool :=
  isWord (Fields.getD f "then") "stop" || isWord (Fields.getD f "finally") "stop"

/-- The tool that a descriptor names. -/
def tool? (f : Fields) : Option Json :=
  let action := Fields.getD f "action"
  if action.isGiven && !isWord action "continue" && !isWord action "emit_event" then some action
  else none

/-- The input of the tool that a descriptor names. -/
def inputOf (f : Fields) : Fields := f.filter fun (key, _) => !reservedKeys.contains key

/-- The action that a descriptor asks for. An empty descriptor asks for none. -/
def parse? (f : Fields) : Except Validation.Report (Option BranchAction) :=
  if f.isEmpty then .ok none
  else
    match checkReason f with
    | .error e => .error e
    | .ok reason =>
      if isWord (Fields.getD f "action") "stop" then .ok (some ⟨true, reason, none, none, []⟩)
      else
        match (if emits f then (emission f).map some else .ok none) with
        | .error e => .error e
        | .ok emit =>
          let tool := tool? f
          .ok (some ⟨stopsAfter f, reason, emit, tool, if tool.isSome then inputOf f else []⟩)

/-- An action as a data value. -/
def toJson (a : BranchAction) : Json :=
  .object [
    ("stop", .bool a.stop),
    ("reason", Json.ofText? a.reason),
    ("emit", (a.emit.map Emission.toJson).getD .null),
    ("tool_name", a.tool.getD .null),
    ("tool_input", .object a.toolInput)]

/-- Check the fields of an action that is already in its one form. -/
def check : Validation.Check BranchAction :=
  Validation.record recordName fun f =>
    BranchAction.mk <$> Validation.defaulted f "stop" false Validation.truth
      <*> Validation.defaulted f "reason" none Validation.optionalText
      <*> Validation.defaulted f "emit" none (Validation.optional Emission.check)
      <*> Validation.defaulted f "tool_name" none
        (Validation.optional fun v => (Validation.text v).map Json.string)
      <*> Validation.defaulted f "tool_input" [] Validation.object

end BranchAction

end LeadDesk

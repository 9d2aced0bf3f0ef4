import LeadDesk.Condition.Expression
import LeadDesk.Execution.Branch
import LeadDesk.Model.Client
import LeadDesk.Model.Reply
/-!
# Carrying out steps

A step of each type of action as an action of the desk that gives a `StepResult`. A step
whose provider or language model is not set up is not carried out; its result is laid down
by `WorkflowStep.absence`.
-/

namespace LeadDesk

/-- A failed step whose provider is not set up. -/
def StepResult.notConfigured (name : String) : StepResult :=
  { success := false, error := some s!"{name} is not configured", unavailable := true }

/-- A skipped step, with the reason as its output. -/
def StepResult.skip (reason : String) : StepResult :=
  { success := true, status := some .skipped,
    output := some (.object [("skipped", .bool true), ("reason", .string reason)]) }

namespace ToolStep

/-- The name of the request for an event, which workflows call like a tool. -/
def emissionName : String := "emit_event"

/-- The tool that a configuration names. -/
def toolName (config : Fields) : Json := (Fields.getD config "tool_name").orElse (.string "")

/-- The result of a step whose provider has no credentials. -/
def absence (config : Fields) : Action (Option StepResult) := do
  match ← Action.ofExcept (Enrichment.provider? (toolName config)) with
  | some p => return if ← Enrichment.isAvailable p then none else some (.notConfigured p.name)
  | none => return none

/-- The object under a key, or an empty one. -/
def objectAt (input : Fields) (key : String) : Json :=
  match Fields.getD input key with
  | .object fields => .object fields
  | _ => .empty

/-- The emission that input asks for. -/
def emission (input : Fields) : Except Failure Emission :=
  match (Emission.check (.object [
      ("event_type", Fields.getD input "event_type"),
      ("entity_type", (Fields.getD input "entity_type").orElse .null),
      ("entity_id", (Fields.getD input "entity_id").orElse .null),
      ("payload", objectAt input "payload")])).toExcept Emission.recordName with
  | .ok e => .ok e
  | .error report => .error (.invalid report)

/-- The result of a request for an event. -/
def request (input : Fields) : Except Failure StepResult :=
  if !(Fields.getD input "event_type").isGiven then
    .ok (.fail BranchAction.untypedEmission (some (.object input)))
  else do
    let e ← emission input
    return { success := true, input := some (.object input), emit := some e
             output := some (.object
               [("emitted", .bool true), ("event_type", .string e.eventType)]) }

/-- The fields of the input of a request. -/
def requestInput : Option Json → Except Failure Fields
  | some (.object fields) => .ok fields
  | some v => .error (.lacks v.kindName "get")
  | none => .error (.lacks "_Missing" "get")

/-- The result of a tool that has given an output. -/
def resultOf (output : Json) (input : Option Json) : StepResult :=
  { success := true, output := some output, input := input }

/-- Call what a name stands for: a request for an event, a provider, or a tool. -/
def call (name : Json) (input : Option Json) : Action StepResult := do
  if name.same (.string emissionName) then
    Action.ofExcept (requestInput input >>= request)
  else
    match ← Action.ofExcept (Enrichment.provider? name) with
    | some p => return resultOf (← Enrichment.callWith p input) input
    | none => return resultOf (← Registry.invoke name input) input

/-- The place in the context of the value that fills a field of the input, if it is one. -/
def place? (mapping context : Json) (name : String) : Option (List String) :=
  match mapping with
  | .string s => (Template.place? s context).map (· ++ [name])
  | .object fields => (Fields.getD fields name).text?.bind fun s => Template.place? s context
  | _ => none

/-- The input that a configuration lays down, before it is filled. -/
def mapping (config : Fields) : Json := (Fields.getD config "input_mapping").orElse .empty

/-- The place in the context of the value that the call can add items to. Only the research of a
company adds any. -/
def subject? (config : Fields) (context : Json) : Option (List String) :=
  match Enrichment.provider? (toolName config), Template.resolveData context (mapping config) with
  | .ok (some .research), .ok (some (.object input)) =>
    place? (mapping config) context (Provider.subjectName input)
  | _, _ => none

/-- The result of a call, whose input shows what the call has added to it. -/
def settled (r : StepResult) (name : Json) (input : Option Json) (added : List Json) : StepResult :=
  match Enrichment.provider? name, input with
  | .ok (some .research), some (.object fields) =>
    { r with input := some (.object (Provider.grown fields added)) }
  | _, _ => r

section

variable (r : StepResult) (name : Json) (input : Option Json) (added : List Json)

@[simp] theorem success_settled : (settled r name input added).success = r.success := by
  unfold settled
  split <;> rfl

@[simp] theorem output_settled : (settled r name input added).output = r.output := by
  unfold settled
  split <;> rfl

@[simp] theorem emit_settled : (settled r name input added).emit = r.emit := by
  unfold settled
  split <;> rfl

@[simp] theorem stop_settled : (settled r name input added).stop = r.stop := by
  unfold settled
  split <;> rfl

end

/-- The result of a call that has come to an end. -/
def concluded (name : Json) (input : Option Json) :
    Except Failure StepResult → Except Failure StepResult
  | .ok result => .ok result
  | .error e => StepResult.ofFailure name e input

/-- Fill the input of the tool from the context and call it. -/
def run (config : Fields) (context : Json) : Action StepResult := do
  match Template.resolveData context (mapping config) with
  | .error e => Action.fail (.number e)
  | .ok input =>
    let called ← Action.attempt (call (toolName config) input)
    let result ← Action.ofExcept (concluded (toolName config) input called)
    return settled result (toolName config) input (← Action.added)

end ToolStep

namespace PromptStep

/-- The result of a step when no language model is set up. -/
def absence : Action (Option StepResult) := do
  let client := ModelClient.ofSettings (← Action.settings)
  if client.isAvailable then return none
  else return some { StepResult.skip "No API key" with unavailable := true }

/-- The number of tokens that an answer may have when a configuration sets none. -/
def defaultTokens : Json := 1000

/-- The name of a model as a text. -/
def modelName (model : Json) : Except Failure (Option String) :=
  ((Validation.Checked.under (.key "model_used") (Validation.optionalText model)).toExcept
    "StepResult").mapError Failure.invalid

/-- The output that the content of an answer is read as: data, when the configuration asks for that,
or the content itself. Nothing but a text can be read as data. -/
def outputOf (config : Fields) (content : Json) : Except Failure (Except Failure Json) :=
  if (Fields.getD config "output_type").same (.string "json") then
    match content with
    | .string s => .ok (Reply.data s)
    | v => .error (.wrongKind s!"expected string or bytes-like object, got '{v.kindName}'")
  else .ok (.ok content)

/-- The result of an answer. -/
def resultOf (config : Fields) (input : Json) (answer : ModelAnswer) :
    Except Failure StepResult := do
  let output ← outputOf config answer.content
  let model ← modelName answer.model
  match output with
  | .ok output =>
    return { success := true, output := some output, input := some input,
             tokensUsed := some answer.tokens, modelUsed := model }
  | .error e =>
    return { success := false, output := some answer.content, input := some input,
             tokensUsed := some answer.tokens, modelUsed := model
             error := some s!"Failed to parse AI response as JSON: {e.message}" }

/-- Fill the prompt from the context and ask the language model. What is no failure of the model is
not caught. -/
def run (config : Fields) (context : Json) : Action StepResult := do
  let template := (Fields.getD config "prompt_template").orElse (.string "")
  match Template.resolveValue template context with
  | .error e => Action.fail (.number e)
  | .ok prompt =>
    let input := Json.object [("prompt", prompt)]
    let maxTokens := (Fields.getD config "max_tokens").orElse defaultTokens
    let tier := (Fields.getD config "model").orElse (.string "default")
    let client := ModelClient.ofSettings (← Action.settings)
    match ← Action.attempt (client.complete prompt maxTokens tier) with
    | .ok answer => Action.ofExcept (resultOf config input answer)
    | .error (.model message) => return .fail message (some input)
    | .error e => Action.fail e

end PromptStep

namespace ConditionStep

/-- Whether a condition holds. One that cannot be evaluated does not. -/
def matched (condition context : Json) : Except Failure Bool :=
  match Condition.evaluate condition context with
  | .ok b => .ok b
  | .error e => if e.isExpressionFault then .ok false else .error (.condition e)

/-- The branch that the configuration names for an outcome. -/
def branch (config : Fields) (outcome : Bool) : Json :=
  Fields.getD config (if outcome then "on_true" else "on_false")

/-- Evaluate the condition and carry out the branch for its outcome. -/
def run (config : Fields) (context : Json) : Action StepResult := do
  let condition := (Fields.getD config "condition").orElse (.string "")
  let outcome ← Action.ofExcept (matched condition context)
  let shown ← Action.ofExcept ((Template.resolveValue condition context).mapError Failure.number)
  BranchAction.apply (branch config outcome) context
    (.object [("condition", shown), ("result", .bool outcome)])

end ConditionStep

namespace BranchStep

/-- The result of a step in which no branch is taken. -/
def noMatch : StepResult :=
  { success := true, output := some (.object [("no_match", .bool true)]) }

/-- The branches of a configuration. -/
def branches (config : Fields) : Except Failure (List Json) :=
  match (Fields.getD config "branches").orElse (.array []) with
  | .array items => .ok items
  | .object fields => .ok (fields.map fun f => .string f.1)
  | .string s => .ok (s.toList.map fun c => .string (String.singleton c))
  | v => .error (.wrongKind s!"'{v.kindName}' object is not iterable")

/-- The first branch from an index on whose condition holds, with its index. -/
def firstMatch (context : Json) (index : Nat) : List Json → Except Failure (Option (Nat × Json))
  | [] => .ok none
  | .object fields :: rest =>
    match ConditionStep.matched ((Fields.getD fields "condition").orElse (.string "")) context with
    | .error e => .error e
    | .ok true => .ok (some (index, .object fields))
    | .ok false => firstMatch context (index + 1) rest
  | v :: _ => .error (.lacks v.kindName "get")

/-- Carry out the first branch whose condition holds. -/
def run (config : Fields) (context : Json) : Action StepResult := do
  let all ← Action.ofExcept (branches config)
  match ← Action.ofExcept (firstMatch context 0 all) with
  | some (index, branch) =>
    BranchAction.apply branch context (.object [("branch", .int index)])
  | none => return noMatch

end BranchStep

namespace WorkflowStep

/-- The result of a step that cannot be carried out because its capability is not set up. -/
def absence (s : WorkflowStep) : Action (Option StepResult) :=
  match s.action with
  | .toolCall => ToolStep.absence s.config
  | .prompt => PromptStep.absence
  | .condition | .branch => return none

/-- The place in the context of the value that the step can add items to. -/
def subject? (s : WorkflowStep) (context : Json) : Option (List String) :=
  match s.action with
  | .toolCall => ToolStep.subject? s.config context
  | .prompt | .condition | .branch => none

/-- Carry out a step whose capability is set up. -/
def run (s : WorkflowStep) (context : Json) : Action StepResult :=
  match s.action with
  | .toolCall => ToolStep.run s.config context
  | .prompt => PromptStep.run s.config context
  | .condition => ConditionStep.run s.config context
  | .branch => BranchStep.run s.config context

/-- Carry out a step. -/
def carryOut (s : WorkflowStep) (context : Json) : Action StepResult := do
  match ← s.absence with
  | some result => return result
  | none => s.run context

end WorkflowStep

/-- The branches after the first one that holds do not count. -/
theorem BranchStep.firstMatch_append {context : Json} {index : Nat} {bs : List Json}
    {found : Nat × Json} (h : firstMatch context index bs = .ok (some found))
    (more : List Json) : firstMatch context index (bs ++ more) = .ok (some found) := by
  induction bs generalizing index with
  | nil => simp [firstMatch] at h
  | cons b rest ih =>
    cases b with
    | object fields =>
      simp only [firstMatch, List.cons_append] at h ⊢
      split at h
      · simp at h
      · exact h
      · exact ih h
    | null | bool _ | int _ | float _ | string _ | array _ => simp [firstMatch] at h

end LeadDesk

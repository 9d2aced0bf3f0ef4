import LeadDesk.Desk.Action
/-!
# The language model

A prompt is sent to a model that is named by a tier (`haiku` for the small model, `default`
or `sonnet` for the other one) or by its own name. A call is bounded in time; all trouble
with it is a failure of the model. What comes as its answer is taken apart afterwards, and
what is no answer fails there in a way of its own.
-/

namespace LeadDesk

/-- What is needed to call a language model. -/
structure ModelClient where
  default : String
  small : String
  key : Option String
  limit : Limit
  deriving Inhabited

/-- The reply of a language model. Its content should be a text. -/
structure ModelAnswer where
  content : Json
  tokens : Int
  model : Json
  deriving Repr

namespace ModelClient

/-- The client that the settings describe. -/
def ofSettings (s : Settings) : ModelClient :=
  { default := s.modelDefault, small := s.modelSmall, key := s.modelKey, limit := s.modelLimit }

/-- A key is there. -/
def isAvailable (c : ModelClient) : Bool :=
  match c.key with
  | none | some "" => false
  | some _ => true

/-- The model of a tier. A tier that is no tier is a model's own name. -/
def modelOf (c : ModelClient) (tier : Json) : Json :=
  if tier.same (.string "haiku") then .string c.small
  else if !tier.isGiven || tier.same (.string "default") || tier.same (.string "sonnet") then
    .string c.default
  else tier

/-- The call that asks a model to complete a prompt. -/
def callOf (c : ModelClient) (model prompt maxTokens : Json) : Fields :=
  [("model", model),
    ("messages", .array [.object [("role", .string "user"), ("content", prompt)]]),
    ("max_tokens", maxTokens)] ++
  (if c.isAvailable then [("api_key", .string (c.key.getD ""))] else [])

/-- The number of tokens that an answer has used. -/
def tokensOf : Option (Option Int × Option Int) → Int
  | none => 0
  | some (read, written) => read.getD 0 + written.getD 0

/-- Wait for the answer to a call: its content and the number of its tokens, or why it cannot be
taken apart. -/
def ask (call : Fields) : Action (Except Failure (Json × Int)) := do
  match ← Action.callModel call with
  | .answer content usage => return .ok (content.orElse (.string ""), tokensOf usage)
  | .garbled e _ => return .error e
  | .broken e => Action.fail e
  | .never => Action.hang

/-- Send a prompt and wait for the answer, but not beyond the limit. -/
def reply (c : ModelClient) (prompt maxTokens tier : Json) :
    Action (Option (Except Failure (Json × Int))) :=
  Action.within c.limit (ask (c.callOf (c.modelOf tier) prompt maxTokens))

/-- The failure of a call whose limit has passed. -/
def timeout (c : ModelClient) : Failure := .model s!"LLM call timed out after {c.limit.text}s"

/-- Trouble with a call as a failure of the model. -/
def failureOf (c : ModelClient) : Failure → Failure
  | .outside .timeout _ _ => c.timeout
  | e => .model s!"LLM call failed: {e.message}"

/-- Complete a prompt. -/
def complete (c : ModelClient) (prompt maxTokens tier : Json) : Action ModelAnswer := do
  match ← Action.attempt (c.reply prompt maxTokens tier) with
  | .ok (some (.ok (content, tokens))) =>
    return { content := content, tokens := tokens, model := c.modelOf tier }
  | .ok (some (.error e)) => Action.fail e
  | .ok none => Action.fail c.timeout
  | .error e => Action.fail (c.failureOf e)

/-- All trouble with a call is a failure of the model. -/
theorem kind_failureOf (c : ModelClient) (e : Failure) : (c.failureOf e).kind = "LLMError" := by
  unfold failureOf timeout
  split <;> rfl

end ModelClient

end LeadDesk

import LeadDesk.Json.Printer
import LeadDesk.Number.Double
/-!
# Settings

What an office can set: its team, its language models, its limits of time, how emitted events
are handled, and the keys of the services outside.
-/

namespace LeadDesk

/-- A limit of time, with the text that messages show, in seconds. -/
structure Limit where
  text : String
  micros : Int
  deriving DecidableEq, Repr, Inhabited

namespace Limit

/-- A limit of whole seconds. -/
def seconds (n : Nat) : Limit := ⟨toString n, n * 1000000⟩

/-- The limit that a number of seconds sets. Zero sets none. -/
def ofJson? : Json → Option Limit
  | .int n => if n = 0 then none else some ⟨toString n, n * 1000000⟩
  | .float d =>
    if d.isZero then none
    else (d.mul (Double.ofDecimal false 1000000 0)).truncate?.map fun micros => ⟨d.text, micros⟩
  | .bool true => some ⟨"True", 1000000⟩
  | _ => none

end Limit

/-- The settings of an office. -/
structure Settings where
  logLevel : String := "INFO"
  team : Option String := none
  modelKey : Option String := none
  modelDefault : String := "anthropic/claude-sonnet-4-20250514"
  modelSmall : String := "anthropic/claude-3-5-haiku-20241022"
  modelLimit : Limit := .seconds 30
  toolLimit : Limit := .seconds 30
  runLimit : Limit := .seconds 600
  /-- Emitted events are handled at once and not queued. -/
  inline : Bool := false
  /-- How deep events that are handled at once may nest. -/
  maxDepth : Int := 5
  batchSize : Int := 10
  retries : Int := 0
  peopleDataKey : Option String := none
  hunterKey : Option String := none
  apolloKey : Option String := none
  apifyKey : Option String := none
  perplexityKey : Option String := none
  webhook : Option String := none
  seedOnStart : Bool := true
  deriving Inhabited

namespace Settings

/-- The text that a field sets, or else a text. -/
def textIn (f : Fields) (name default : String) : String :=
  match Fields.get? f name with
  | some (.string s) => s
  | _ => default

/-- The optional text that a field sets, or else a text. Null sets none. -/
def textIn? (f : Fields) (name : String) (default : Option String) : Option String :=
  match Fields.get? f name with
  | none => default
  | some v => v.text?

/-- The integer that a field sets, or else an integer. -/
def integerIn (f : Fields) (name : String) (default : Int) : Int :=
  match Fields.get? f name with
  | some (.int n) => n
  | _ => default

/-- The truth value that a field sets, or else a truth value. -/
def truthIn (f : Fields) (name : String) (default : Bool) : Bool :=
  match Fields.get? f name with
  | some v => v.isGiven
  | none => default

/-- The limit that a field sets, or else a limit. Zero is a limit here. -/
def limitIn (f : Fields) (name : String) (default : Limit) : Limit :=
  match Fields.get? f name with
  | some (.int n) => ⟨toString n, n * 1000000⟩
  | some v => (Limit.ofJson? v).getD default
  | none => default

/-- Settings on top of others, each under its name. -/
def ofFields (s : Settings) (f : Fields) : Settings where
  logLevel := textIn f "log_level" s.logLevel
  team := textIn? f "default_team_id" s.team
  modelKey := textIn? f "llm_api_key" s.modelKey
  modelDefault := textIn f "llm_model_default" s.modelDefault
  modelSmall := textIn f "llm_model_haiku" s.modelSmall
  modelLimit := limitIn f "llm_timeout_seconds" s.modelLimit
  toolLimit := limitIn f "tool_timeout_seconds" s.toolLimit
  runLimit := limitIn f "workflow_run_timeout" s.runLimit
  inline := truthIn f "process_emitted_immediately" s.inline
  maxDepth := integerIn f "max_emit_depth" s.maxDepth
  batchSize := integerIn f "monitor_batch_size" s.batchSize
  retries := integerIn f "enrichment_max_retries" s.retries
  peopleDataKey := textIn? f "pdl_api_key" s.peopleDataKey
  hunterKey := textIn? f "hunter_api_key" s.hunterKey
  apolloKey := textIn? f "apollo_api_key" s.apolloKey
  apifyKey := textIn? f "apify_api_key" s.apifyKey
  perplexityKey := textIn? f "perplexity_api_key" s.perplexityKey
  webhook := textIn? f "slack_webhook_url" s.webhook
  seedOnStart := truthIn f "seed_on_startup" s.seedOnStart

/-- Without fields the settings stay as they are. -/
@[simp] theorem ofFields_nil (s : Settings) : ofFields s [] = s := rfl

end Settings

end LeadDesk

import LeadDesk.Execution.Run
/-!
# Dispatch of events

An event runs every active workflow that its type sets off, one after the other, and is
marked as processed afterwards, whatever became of the runs. An event that is already
processed runs nothing, and one that asks to wait is waited for.

Events that runs emit are queued, or handled at once down to a depth (`Dispatch.atOnce`). The
desk counts how deep it is; the levels of `Dispatch.inline` are as many as the bound, so that the
count runs out first.
-/

namespace LeadDesk

namespace Dispatch

/-- The stored form of an event, which is stored first if its id is not known. -/
def accept (e : Event) : Action Event := do
  match ← Archive.getEvent e.id with
  | some stored => return stored
  | none => Archive.createEvent e

/-- How long an event asks to wait from a moment on, in microseconds. An event that asks for
nothing that can be understood does not wait. -/
def delay (e : Event) (now : Timestamp) : Int :=
  match e.delayUntil with
  | .ok (some t) => max 0 (t.instant - now.instant)
  | _ => 0

/-- The event asks for a moment that can be understood. -/
def hasDelay (e : Event) : Bool :=
  match e.delayUntil with
  | .ok (some _) => true
  | _ => false

/-- Microseconds as seconds. -/
def secondsOf (micros : Int) : Double := Double.ofRatio (micros < 0) micros.natAbs 1000000

/-- Wait until the moment that an event asks for. -/
def wait (e : Event) : Action Unit := do
  if hasDelay e then
    let now ← Action.now
    let micros := delay e now
    if 0 < micros then Action.sleep (secondsOf micros)

/-- The outcome of a run that failed before it had a record or after its end. -/
def crashed (w : Workflow) (e : Failure) : RunOutcome :=
  { success := false, slug := some w.slug, status := .failed, error := some e.text }

/-- Run a workflow for an event. -/
def runOne (emitter : Emitter) (e : Event) (w : Workflow) : Action RunOutcome := do
  match ← Action.attempt (w.run emitter (.object e.contextSeed) "event") with
  | .ok outcome => return outcome
  | .error failure => return crashed w failure

/-- Run workflows for an event in turn. -/
def runAll (emitter : Emitter) (e : Event) : List Workflow → Action (List RunOutcome)
  | [] => return []
  | w :: rest => do
    let outcome ← runOne emitter e w
    let more ← runAll emitter e rest
    return outcome :: more

/-- The result for an event that is already processed. -/
def alreadyProcessed (e : Event) : DispatchResult :=
  { eventId := some e.id, skipped := true, message := some "Event already processed" }

/-- The result for an event that sets off no workflow. -/
def noMatch (e : Event) : DispatchResult :=
  { eventId := some e.id, message := some "No matching workflows" }

/-- Handle an event. -/
def event (emitter : Emitter) (e : Event) : Action DispatchResult := do
  if e.processed then return alreadyProcessed e
  wait e
  match ← Archive.activeWorkflows e.type with
  | [] =>
    Archive.markProcessed e.id
    return noMatch e
  | w :: rest =>
    let outcomes ← runAll emitter e (w :: rest)
    Archive.markProcessed e.id
    return { eventId := some e.id, workflowsRun := outcomes.length, results := outcomes }

/-- Handle an event that was just emitted, one level deeper, unless it is as deep as events may be
handled at once. -/
def atOnce (bound : Int) (nested : Emitter) (e : Event) : Action Event := do
  if bound ≤ (← Action.depth) then return e
  let _ ← Action.deeper (event nested e)
  return e

/-- The emitter that handles events at once down to a depth. -/
def inline (bound : Int) : (levels : Nat) → Emitter
  | 0 => Emitter.queue
  | levels + 1 => fun f => do
    let e ← Emitter.queue f
    atOnce bound (inline bound levels) e

/-- The emitter of runs under given settings. -/
def emitterFor (settings : Settings) : Emitter :=
  if settings.inline then inline settings.maxDepth settings.maxDepth.toNat else Emitter.queue

/-- The emitter of the runs of a desk. -/
def emitter : Action Emitter := do
  return emitterFor (← Action.settings)

/-- Handle an event with the emitter of the desk. -/
def handle (e : Event) : Action DispatchResult := do
  event (← emitter) e

/-- Handle the stored event with an id. -/
def byId (id : String) : Action DispatchResult := do
  match ← Archive.getEvent id with
  | some e => handle e
  | none => Action.fail (.noEvent id)

/-- Handle events in turn. -/
def handleAll : List Event → Action (List DispatchResult)
  | [] => return []
  | e :: rest => do
    let result ← handle e
    let more ← handleAll rest
    return result :: more

/-- Handle the oldest events that are not processed. -/
def pending (limit : Option Int) : Action (List DispatchResult) := do
  handleAll (← Archive.unprocessedEvents limit)

/-- The context of a run that is set off by hand: with the team of the desk unless it names
one. -/
def manualContext (team : Option String) (context : Json) : Except Failure Json :=
  match context.orElse .empty with
  | .object fields =>
    .ok (.object (if Fields.has fields "team_id" then fields
      else Fields.put fields "team_id" (Json.ofText? team)))
  | v => .error (.wrongKind s!"'{v.kindName}' object is not iterable")

/-- Run the workflow with a slug by hand. -/
def trigger (slug : String) (context : Json) : Action RunOutcome := do
  match ← Archive.getWorkflow slug with
  | none => Action.fail (.noWorkflow slug)
  | some w =>
    let settings ← Action.settings
    let context ← Action.ofExcept (manualContext settings.team context)
    w.run (← emitter) context "manual"

/-- Emit an event from outside of all runs. Whether it is handled at once can be said for this
event alone; what its own runs emit is handled as the settings say. -/
def emit (e : Emission) (team : Json) (immediately : Option Bool) : Action Event := do
  let settings ← Action.settings
  let e ← Emitter.queue
    { type := e.eventType, entityType := Json.ofText? e.entityType,
      entityId := Json.ofText? e.entityId, payload := e.payload, team := team }
  if immediately.getD settings.inline then atOnce settings.maxDepth (emitterFor settings) e
  else return e

/-- A run together with its log. -/
def status (runId : String) : Action (Option (Run × List RunLog)) := do
  match ← Archive.getRun runId with
  | none => return none
  | some run => return some (run, ← Archive.logsOf runId)

/-- An event that is processed changes nothing. -/
theorem run_event_of_processed (emitter : Emitter) {e : Event} (h : e.processed = true)
    (o : Office) (d : Desk) : (event emitter e).run o d = (.done (alreadyProcessed e), d) := by
  simp [event, h]

end Dispatch

end LeadDesk

import LeadDesk.Dispatch.Basic
/-!
# The monitor

The monitor looks for the oldest events that are not processed and handles those of them that need
not wait any longer; the others stay for a later look. It runs at most one loop: to start it twice
is to start it once.
-/

namespace LeadDesk

namespace Monitor

/-- The event need not wait any longer. -/
def isReady (e : Event) (now : Timestamp) : Bool :=
  match e.delayUntil with
  | .ok (some t) => t.instant ≤ now.instant
  | _ => true

/-- Handle the events that are ready. A failure leaves its event out of the results. -/
def handleReady (now : Timestamp) : List Event → Action (List DispatchResult)
  | [] => return []
  | e :: rest => do
    if isReady e now then
      match ← Action.attempt (Dispatch.handle e) with
      | .ok result => return result :: (← handleReady now rest)
      | .error _ => handleReady now rest
    else handleReady now rest

/-- The number of events of one look. -/
def batch (settings : Settings) (size : Option Int) : Int :=
  match size with
  | none => settings.batchSize
  | some n => if n = 0 then settings.batchSize else n

/-- Look once for events and handle those that are ready. -/
def poll (size : Option Int) : Action (List DispatchResult) := do
  let settings ← Action.settings
  let events ← Archive.unprocessedEvents (some (batch settings size))
  handleReady (← Action.now) events

/-- Look once, as the loop of the monitor does: a failure gives no results. -/
def pollQuietly (size : Option Int) : Action (List DispatchResult) := do
  match ← Action.attempt (poll size) with
  | .ok results => return results
  | .error _ => return []

/-- The monitor runs a loop, which has a number, or stands still. -/
structure Loop where
  current : Option Nat := none
  /-- How many loops have been started. -/
  started : Nat := 0
  deriving DecidableEq, Repr, Inhabited

namespace Loop

/-- A loop is running. -/
def isRunning (l : Loop) : Bool := l.current.isSome

/-- Start a loop unless one is running. -/
def start (l : Loop) : Loop :=
  if l.isRunning then l else { current := some l.started, started := l.started + 1 }

/-- End the loop. -/
def stop (l : Loop) : Loop := { l with current := none }

/-- To start a second time changes nothing. -/
@[simp] theorem start_start (l : Loop) : l.start.start = l.start := by
  unfold start isRunning
  by_cases h : l.current.isSome = true <;> simp [h]

end Loop

/-- An event is ready exactly when it asks for no wait. -/
theorem isReady_iff (e : Event) (now : Timestamp) :
    isReady e now = true ↔ Dispatch.delay e now = 0 := by
  unfold isReady Dispatch.delay
  cases e.delayUntil with
  | error _ => simp
  | ok t =>
    cases t with
    | none => simp
    | some t =>
      simp only [decide_eq_true_eq]
      omega

end Monitor

end LeadDesk

import LeadDesk.Desk.Action
/-!
# Bounded calls

A call of a tool or a provider runs within a limit of time, and whatever goes wrong in it
comes out as a failure of the tool: a passed limit as a timeout, all else with the message
of its cause. Above that, a call may be tried again while its trouble may pass
(`Retry.run`).
-/

namespace LeadDesk

namespace Sandbox

/-- The failure of a call whose limit has passed. -/
def timeout (name : String) (limit : Limit) : Failure :=
  .toolTimeout s!"Tool timed out after {limit.text}s" name

/-- A failure inside a call as a failure of the tool. -/
def failureOf (name : String) (limit : Limit) : Failure → Failure
  | .tool message owner => .tool message owner
  | .toolTimeout message owner => .toolTimeout message owner
  | .outside .timeout _ _ => timeout name limit
  | e => .tool e.message name

/-- Carry out a call within a limit of time. -/
def execute {α : Type} (name : String) (limit : Limit) (call : Action α) : Action α := do
  match ← Action.attempt (Action.within limit call) with
  | .ok (some v) => return v
  | .ok none => Action.fail (timeout name limit)
  | .error e => Action.fail (failureOf name limit e)

/-- What comes out of a call is a failure of a tool. -/
theorem kind_failureOf (name : String) (limit : Limit) (e : Failure) :
    (failureOf name limit e).kind = "ToolError" ∨
      (failureOf name limit e).kind = "ToolTimeout" := by
  cases e with
  | outside trouble n m => cases trouble <;> simp [failureOf, timeout, Failure.kind]
  | _ => simp [failureOf, Failure.kind]

end Sandbox

namespace Retry

/-- A result that says that the call may be tried again. -/
def isRetryable : Json → Bool
  | .object fields => (Fields.getD fields "retryable").isGiven
  | _ => false

/-- The sleep before the next attempt: the base delay doubled once per attempt so far. It cannot be
told once the power of two is beyond the floating-point numbers. -/
def delay (base : Double) (attempt : Nat) : Except Failure Double :=
  (Double.ofInt? (twoTo attempt)).elim (.error .noDouble) fun power => .ok (base.mul power)

/-- Sleep before the next attempt. -/
def pause (base : Double) (attempt : Nat) : Action Unit := do
  Action.sleep (← Action.ofExcept (delay base attempt))

/-- Carry out a call, and again up to `left` more times while its trouble may pass. -/
def run (base : Double) (attempt : Nat) (call : Action Json) : (left : Nat) → Action Json
  | 0 => call
  | left + 1 => do
    match ← Action.attempt call with
    | .ok v =>
      if isRetryable v then
        pause base attempt
        run base (attempt + 1) call left
      else return v
    | .error e =>
      if e.isTransient then
        pause base attempt
        run base (attempt + 1) call left
      else Action.fail e

/-- The statuses of an answer that may pass. -/
def passingStatuses : List Int := [429, 500, 502, 503, 504]

/-- An answer with this status may pass. -/
def isPassingStatus (status : Json) : Bool := passingStatuses.any fun n => status.same (.int n)

/-- Without further attempts a call is carried out once. -/
@[simp] theorem run_zero (base : Double) (attempt : Nat) (call : Action Json) :
    run base attempt call 0 = call := rfl

end Retry

end LeadDesk

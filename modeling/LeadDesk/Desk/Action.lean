import LeadDesk.Catalog.Document
import LeadDesk.Desk.Outside
import LeadDesk.Desk.Settings
import LeadDesk.Store.TeamSettings
/-!
# Actions of the desk

An action reads and changes the state of a desk (`Desk`) in surroundings that do not change
(`Office`). It ends with a value, with a failure, or because it was cut off: a wait for an
answer that never comes ends when the first deadline around it passes, and everything up to
the place that set the deadline is given up (`Action.within`). A failure can be caught
(`Action.attempt`), a cut cannot.

Time passes in two ways. Each reading of the clock is made a microsecond after the one before;
waiting moves `Desk.waited` and not the clock. What the clock shows at a moment is on its dial
(`Desk.dial`): a clock that is right shows the moment, another one may stand still or be put back,
and then two readings agree or a later one shows an earlier time.
-/

namespace LeadDesk

/-- The surroundings of a desk. -/
structure Office where
  settings : Settings := {}
  /-- The team in whose name providers are called. -/
  providerTeam : Option String := none
  /-- Tools of the store are at hand. -/
  hasStore : Bool := true
  tools : List ScriptedTool := []
  /-- The limit for all tools, in place of the limit of each one. -/
  toolLimit : Option Limit := none
  /-- The limit for runs, in place of the limit in the settings. -/
  runLimit : Option Limit := none
  /-- How many observers are told of the life of runs. -/
  observers : Nat := 1
  /-- How an observer, by its number, takes a happening of which it is told: at once, but it may
  fail. -/
  reaction : (observer : Nat) → String → Fields → Except Failure Unit := fun _ _ _ => .ok ()
  /-- Operations of the store that fail, with their messages. -/
  faults : List (String × String) := []
  /-- The deadlines that are set, the innermost first, as points of waited time. -/
  deadlines : List Int := []

instance : Inhabited Office := ⟨{}⟩

/-- The surroundings with providers called in the name of a team. -/
def Office.inNameOf (o : Office) (team : Option String) : Office := { o with providerTeam := team }

/-- The state of a desk. -/
structure Desk where
  store : Store := {}
  /-- The moment at which the clock is read next. -/
  clock : Int := 0
  /-- What the clock shows at a moment. Both are microseconds of universal time since the first
  instant of 1970. -/
  dial : Int → Int := id
  nextId : Nat := 1
  /-- Microseconds that have been waited. -/
  waited : Int := 0
  /-- How many emitted events are being handled at once, each within a run of the one before. -/
  depth : Nat := 0
  /-- The items that the call of a provider has added to a list in its input. -/
  added : List Json := []
  script : Script := {}
  journal : Journal := {}

instance : Inhabited Desk := ⟨{}⟩

/-- The time that the clock shows now. -/
def Desk.time (d : Desk) : Timestamp := Timestamp.utc (d.dial d.clock)

/-- How an action ends. -/
inductive Ending (α : Type) where
  | done (value : α)
  | failed (failure : Failure)
  /-- The deadline of a level has passed; the outermost deadline has level one. -/
  | cut (level : Nat)

/-- An action of the desk. -/
structure Action (α : Type) where
  run : Office → Desk → Ending α × Desk

namespace Action

variable {α β : Type}

/-- Do nothing, with a value. -/
protected def pure (a : α) : Action α := ⟨fun _ desk => (.done a, desk)⟩

/-- One action after another, unless the first fails or is cut off. -/
protected def bind (x : Action α) (f : α → Action β) : Action β :=
  ⟨fun office desk =>
    match x.run office desk with
    | (.done a, desk) => (f a).run office desk
    | (.failed e, desk) => (.failed e, desk)
    | (.cut level, desk) => (.cut level, desk)⟩

instance : Monad Action where
  pure := Action.pure
  bind := Action.bind

/-- Fail. -/
def fail (failure : Failure) : Action α := ⟨fun _ desk => (.failed failure, desk)⟩

/-- The result of a pure computation that may fail. -/
def ofExcept : Except Failure α → Action α
  | .ok a => pure a
  | .error e => fail e

/-- Carry an action out and catch its failure. -/
def attempt (x : Action α) : Action (Except Failure α) :=
  ⟨fun office desk =>
    match x.run office desk with
    | (.done a, desk) => (.done (.ok a), desk)
    | (.failed e, desk) => (.done (.error e), desk)
    | (.cut level, desk) => (.cut level, desk)⟩

/-- The deadline that passes first, with its level. Of two that pass together the outer one
counts. -/
def earliest : List Int → Option (Nat × Int)
  | [] => none
  | time :: outer =>
    match earliest outer with
    | none => some (outer.length + 1, time)
    | some (level, first) =>
      if time < first then some (outer.length + 1, time) else some (level, first)

/-- Wait for ever, which ends when the first deadline passes. -/
def hang : Action α :=
  ⟨fun office desk =>
    match earliest office.deadlines with
    | none => (.cut 0, desk)
    | some (level, time) => (.cut level, { desk with waited := max desk.waited time })⟩

/-- Wait for some microseconds, unless a deadline passes before they are over. -/
def elapse (micros : Nat) : Action Unit :=
  ⟨fun office desk =>
    match earliest office.deadlines with
    | some (level, time) =>
      if time ≤ desk.waited + micros then
        (.cut level, { desk with waited := max desk.waited time })
      else (.done (), { desk with waited := desk.waited + micros })
    | none => (.done (), { desk with waited := desk.waited + micros })⟩

/-- Carry an action out before a point of waited time; `none` when that point has come before
its end. -/
def before (time : Int) (x : Action α) : Action (Option α) :=
  ⟨fun office desk =>
    let deadlines := time :: office.deadlines
    match x.run { office with deadlines := deadlines } desk with
    | (.done a, desk) => (.done (some a), desk)
    | (.failed e, desk) => (.failed e, desk)
    | (.cut level, desk) =>
      if level = deadlines.length then (.done none, desk) else (.cut level, desk)⟩

/-- Carry an action out within a limit of time; `none` when the limit has passed before its end.
Without any time the action does not begin. -/
def within (limit : Limit) (x : Action α) : Action (Option α) :=
  ⟨fun office desk =>
    if limit.micros ≤ 0 then (.done none, desk)
    else (before (desk.waited + limit.micros) x).run office desk⟩

/-- The point of waited time at which a limit passes that begins now. -/
def deadline (limit : Limit) : Action Int :=
  ⟨fun _ desk => (.done (desk.waited + limit.micros), desk)⟩

/-- How deep emitted events are being handled at once. -/
def depth : Action Nat := ⟨fun _ desk => (.done desk.depth, desk)⟩

/-- Carry an action out one level deeper. However it ends, the level is as before afterwards. -/
def deeper (x : Action α) : Action α :=
  ⟨fun office desk =>
    let (ending, after) := x.run office { desk with depth := desk.depth + 1 }
    (ending, { after with depth := desk.depth })⟩

/-- The surroundings. -/
def office : Action Office := ⟨fun office desk => (.done office, desk)⟩

/-- The settings. -/
def settings : Action Settings := ⟨fun office desk => (.done office.settings, desk)⟩

/-- Read the clock. -/
def now : Action Timestamp :=
  ⟨fun _ desk => (.done desk.time, { desk with clock := desk.clock + 1 })⟩

/-- The date of today. -/
def today : Action Timestamp := ⟨fun _ desk => (.done desk.time, desk)⟩

/-- An id that has not been given out before. -/
def newId : Action String :=
  ⟨fun _ desk => (.done (freshId desk.nextId), { desk with nextId := desk.nextId + 1 })⟩

/-- Several ids that have not been given out before, by index. -/
def newIds (count : Nat) : Action (Nat → String) :=
  ⟨fun _ desk =>
    (.done (fun n => freshId (desk.nextId + n)), { desk with nextId := desk.nextId + count })⟩

/-- The items that were added to a list. -/
def added : Action (List Json) := ⟨fun _ desk => (.done desk.added, desk)⟩

/-- Put aside which items were added to a list, in the place of those that were put aside before. -/
def putAside (items : List Json) : Action Unit :=
  ⟨fun _ desk => (.done (), { desk with added := items })⟩

/-- Write into the journal. -/
def note (f : Journal → Journal) : Action Unit :=
  ⟨fun _ desk => (.done (), { desk with journal := f desk.journal })⟩

/-- How long the next sleep really takes, which is taken from the script. -/
def nextNap : Action Nat :=
  ⟨fun _ desk =>
    match desk.script.naps with
    | [] => (.done 0, desk)
    | nap :: rest => (.done nap, { desk with script := { desk.script with naps := rest } })⟩

/-- Sleep for some seconds. The clock does not move. -/
def sleep (seconds : Double) : Action Unit := do
  note fun j => { j with sleeps := j.sleeps ++ [seconds] }
  match ← nextNap with
  | 0 => return ()
  | micros => elapse micros

/-- The failure of an operation that the office lets fail. -/
def faultOf (office : Office) (operation : String) : Option Failure :=
  (office.faults.find? (·.1 == operation)).map fun (_, message) =>
    .outside .other "RuntimeError" (some message)

/-- Ask the store. -/
def query (operation : String) (f : Store → Except Failure α) : Action α :=
  ⟨fun office desk =>
    match faultOf office operation with
    | some e => (.failed e, desk)
    | none =>
      match f desk.store with
      | .ok a => (.done a, desk)
      | .error e => (.failed e, desk)⟩

/-- Change the store. A change that is refused leaves the store as it was, and the store can be used
as before. -/
def change (operation : String) (f : Store → Except Failure (α × Store)) : Action α :=
  ⟨fun office desk =>
    match faultOf office operation with
    | some e => (.failed e, desk)
    | none =>
      match f desk.store with
      | .ok (a, store) => (.done a, { desk with store := store })
      | .error e => (.failed e, desk)⟩

/-- Fail if the office lets an operation fail. -/
def guardFault (operation : String) : Action Unit := query operation fun _ => .ok ()

/-- The failure of a connection for which no answer is laid down. -/
def noReply : Failure := .outside .transport "ConnectError" (some "no scripted response")

/-- The pause before the next answer from outside, which is taken from the script. -/
def nextPause : Action (Option Nat) :=
  ⟨fun _ desk =>
    match desk.script.pauses with
    | [] => (.done (some 0), desk)
    | pause :: rest => (.done pause, { desk with script := { desk.script with pauses := rest } })⟩

/-- Wait until the next answer from outside is there. -/
def await : Action Unit := do
  match ← nextPause with
  | none => hang
  | some 0 => return ()
  | some micros => elapse micros

/-- The next answer of the web, which is taken from the script. -/
def nextWeb : Action (Option WebReply) :=
  ⟨fun _ desk =>
    match desk.script.web with
    | [] => (.done none, desk)
    | reply :: rest =>
      (.done (some reply), { desk with script := { desk.script with web := rest } })⟩

/-- Send a request to the web and wait for the next answer. -/
def send (request : WebRequest) : Action WebReply := do
  note fun j => { j with webCalls := j.webCalls ++ [request] }
  await
  match ← nextWeb with
  | none => fail noReply
  | some (.broken e) => fail e
  | some reply => return reply

/-- The answer of a model for which none is laid down. -/
def noModelReply : Failure := .outside .other "RuntimeError" (some "no scripted reply")

/-- The next answer of a language model, which is taken from the script. -/
def nextModel : Action (Option ModelReply) :=
  ⟨fun _ desk =>
    match desk.script.model with
    | [] => (.done none, desk)
    | reply :: rest =>
      (.done (some reply), { desk with script := { desk.script with model := rest } })⟩

/-- Call the language model and wait for the next answer. -/
def callModel (call : Fields) : Action ModelReply := do
  note fun j => { j with modelCalls := j.modelCalls ++ [call] }
  await
  match ← nextModel with
  | none => fail noModelReply
  | some reply => return reply

/-- How often a tool has been called before; this call is counted. -/
def countCall (tool : String) : Action Nat :=
  ⟨fun _ desk =>
    (.done (desk.script.count tool), { desk with script := desk.script.tick tool })⟩

/-- Tell an observer of a happening. It has heard of it even if it fails. -/
def tellOne (event : String) (data : Fields) (observer : Nat) : Action Unit := do
  note fun j => { j with callbacks := j.callbacks ++ [(event, data)] }
  ofExcept ((← office).reaction observer event data)

/-- Tell so many observers from one on of a happening, in turn. The failure of one is caught. -/
def tellFrom (event : String) (data : Fields) (observer : Nat) : (count : Nat) → Action Unit
  | 0 => return ()
  | count + 1 => do
    let _ ← attempt (tellOne event data observer)
    tellFrom event data (observer + 1) count

/-- Tell all observers of a happening. -/
def tell (event : String) (data : Fields) : Action Unit := do
  tellFrom event data 0 (← office).observers

@[simp] theorem run_pure (a : α) (o : Office) (d : Desk) :
    (pure a : Action α).run o d = (.done a, d) := rfl

@[simp] theorem run_added (o : Office) (d : Desk) : added.run o d = (.done d.added, d) := rfl

@[simp] theorem run_putAside (items : List Json) (o : Office) (d : Desk) :
    (putAside items).run o d = (.done (), { d with added := items }) := rfl

@[simp] theorem run_fail (e : Failure) (o : Office) (d : Desk) :
    (fail e : Action α).run o d = (.failed e, d) := rfl

theorem run_bind (x : Action α) (f : α → Action β) (o : Office) (d : Desk) :
    (x >>= f).run o d =
      match x.run o d with
      | (.done a, d) => (f a).run o d
      | (.failed e, d) => (.failed e, d)
      | (.cut level, d) => (.cut level, d) := rfl

/-- Whether it fails or not, an observer that is told of a happening has heard of it. -/
theorem run_attempt_tellOne (event : String) (data : Fields) (observer : Nat) (o : Office)
    (d : Desk) :
    ∃ result, (attempt (tellOne event data observer)).run o d =
      (.done result, { d with journal := { d.journal with
        callbacks := d.journal.callbacks ++ [(event, data)] } }) := by
  have hone : (tellOne event data observer).run o d =
      (ofExcept (o.reaction observer event data)).run o { d with journal := { d.journal with
        callbacks := d.journal.callbacks ++ [(event, data)] } } := rfl
  simp only [attempt, hone]
  cases o.reaction observer event data with
  | ok _ => exact ⟨.ok (), rfl⟩
  | error failure => exact ⟨.error failure, rfl⟩

theorem run_tellFrom (event : String) (data : Fields) (count : Nat) (o : Office) :
    ∀ (observer : Nat) (d : Desk), (tellFrom event data observer count).run o d =
      (.done (), { d with journal := { d.journal with
        callbacks := d.journal.callbacks ++ List.replicate count (event, data) } }) := by
  induction count with
  | zero =>
    intro observer d
    simp [tellFrom]
  | succ count ih =>
    intro observer d
    obtain ⟨result, hone⟩ := run_attempt_tellOne event data observer o d
    rw [tellFrom, run_bind, hone]
    simp only [ih, List.append_assoc, List.replicate_succ, List.singleton_append]

/-- To tell the observers of a happening does nothing but that: each of them hears of it, and none
of them can make it fail. -/
theorem run_tell (event : String) (data : Fields) (o : Office) (d : Desk) :
    (tell event data).run o d =
      (.done (), { d with journal := { d.journal with
        callbacks := d.journal.callbacks ++ List.replicate o.observers (event, data) } }) :=
  run_tellFrom event data o.observers o 0 d

/-- What is attempted does not fail. -/
theorem attempt_ne_failed (x : Action α) (o : Office) (d : Desk) (e : Failure) :
    ((attempt x).run o d).1 ≠ .failed e := by
  show (match x.run o d with
    | (.done a, desk) => ((.done (.ok a) : Ending (Except Failure α)), desk)
    | (.failed e, desk) => (.done (.error e), desk)
    | (.cut level, desk) => (.cut level, desk)).1 ≠ _
  split <;> simp

end Action

end LeadDesk
